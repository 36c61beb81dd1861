/-
  Firmware: what hardware is asked to do. With its accesses recorded, any hardware behaves as
  before, and what a driver adds to the record can be told access by access. The hook works on
  the hardware below the record.
-/
import Firmware.Registers.Hardware
import Firmware.Registers.Recorded

namespace Firmware

variable {σ : Type}

/-- The same hardware, with every access recorded. -/
def Hardware.recorded (hardware : Hardware σ) : Hardware (Recorded σ) where
  toRegisters := hardware.toRegisters.recorded
  relax recorded := { recorded with state := hardware.relax recorded.state }

/-- The register that an access is made to. -/
def Access.address : Access → UInt64
  | .read address _ => address
  | .write address _ => address

/-! ## The words of one register -/

/-- The words that accesses write to a register, in order. -/
def wordsWritten (address : UInt64) (accesses : List Access) : List UInt32 :=
  accesses.filterMap fun
    | .write a word => if a = address then some word else none
    | .read _ _ => none

/-- The words that accesses read from a register, in order. -/
def wordsRead (address : UInt64) (accesses : List Access) : List UInt32 :=
  accesses.filterMap fun
    | .read a word => if a = address then some word else none
    | .write _ _ => none

section

variable (address : UInt64) (word : UInt32) (accesses accesses' : List Access)

@[simp] theorem wordsWritten_append : wordsWritten address (accesses ++ accesses') =
    wordsWritten address accesses ++ wordsWritten address accesses' :=
  List.filterMap_append

@[simp] theorem wordsRead_append : wordsRead address (accesses ++ accesses') =
    wordsRead address accesses ++ wordsRead address accesses' :=
  List.filterMap_append

@[simp] theorem wordsWritten_write : wordsWritten address (.write address word :: accesses) =
    word :: wordsWritten address accesses := by
  simp [wordsWritten]

@[simp] theorem wordsRead_write (a : UInt64) : wordsRead address (.write a word :: accesses) =
    wordsRead address accesses := by
  simp [wordsRead]

@[simp] theorem wordsWritten_read (a : UInt64) :
    wordsWritten address (.read a word :: accesses) = wordsWritten address accesses := by
  simp [wordsWritten]

@[simp] theorem wordsRead_read : wordsRead address (.read address word :: accesses) =
    word :: wordsRead address accesses := by
  simp [wordsRead]

variable {address accesses}

theorem wordsWritten_eq_nil (h : ∀ access ∈ accesses, access.address ≠ address) :
    wordsWritten address accesses = [] := by
  refine List.filterMap_eq_nil_iff.mpr fun access hmem => ?_
  cases access with
  | read a word => rfl
  | write a word => exact if_neg (h _ hmem)

theorem wordsRead_eq_nil (h : ∀ access ∈ accesses, access.address ≠ address) :
    wordsRead address accesses = [] := by
  refine List.filterMap_eq_nil_iff.mpr fun access hmem => ?_
  cases access with
  | read a word => exact if_neg (h _ hmem)
  | write a word => rfl

end

namespace Recorded

variable {P : Access → Prop} {r s t : Recorded σ}

/-- What comes after adds accesses to the record, each of a certain kind. -/
def Adds (P : Access → Prop) (before after : Recorded σ) : Prop :=
  ∃ added, (∀ access ∈ added, P access) ∧ after.accesses = before.accesses ++ added

theorem Adds.refl (r : Recorded σ) : Adds P r r :=
  ⟨[], nofun, (List.append_nil _).symm⟩

theorem Adds.trans (hrs : Adds P r s) (hst : Adds P s t) : Adds P r t := by
  obtain ⟨first, hfirst, hs⟩ := hrs
  obtain ⟨second, hsecond, ht⟩ := hst
  refine ⟨first ++ second, ?_, ?_⟩
  · intro access hmem
    rcases List.mem_append.mp hmem with h | h
    · exact hfirst access h
    · exact hsecond access h
  · rw [ht, hs, List.append_assoc]

theorem accesses_read (registers : Registers σ) (address : UInt64) (r : Recorded σ) :
    (registers.recorded.read address r).2.accesses =
      r.accesses ++ [.read address (registers.read address r.state).1] :=
  List.reverse_cons

theorem accesses_write (registers : Registers σ) (address : UInt64) (value : UInt32)
    (r : Recorded σ) :
    (registers.recorded.write address value r).accesses = r.accesses ++ [.write address value] :=
  List.reverse_cons

theorem adds_read (registers : Registers σ) {address : UInt64} (r : Recorded σ)
    (h : ∀ value, P (.read address value)) : Adds P r (registers.recorded.read address r).2 := by
  refine ⟨_, ?_, accesses_read registers address r⟩
  rintro access hmem
  rw [List.mem_singleton.mp hmem]
  exact h _

theorem adds_write (registers : Registers σ) {address : UInt64} {value : UInt32} (r : Recorded σ)
    (h : P (.write address value)) : Adds P r (registers.recorded.write address value r) := by
  refine ⟨_, ?_, accesses_write registers address value r⟩
  rintro access hmem
  rw [List.mem_singleton.mp hmem]
  exact h

/-- A read-modify-write reads a register and writes what becomes of its value. -/
theorem accesses_modify_eq (registers : Registers σ) (address : UInt64) (f : UInt32 → UInt32)
    (r : Recorded σ) :
    let value := (registers.read address r.state).1
    (registers.recorded.modify address f r).accesses =
      r.accesses ++ [.read address value, .write address (f value)] := by
  intro value
  let read := (registers.recorded.read address r).2
  show (registers.recorded.write address (f value) read).accesses = _
  rw [accesses_write, accesses_read, List.append_assoc]
  rfl

theorem accesses_modify (registers : Registers σ) (address : UInt64) (f : UInt32 → UInt32)
    (r : Recorded σ) : ∃ value, (registers.recorded.modify address f r).accesses =
      r.accesses ++ [.read address value, .write address (f value)] :=
  ⟨_, accesses_modify_eq registers address f r⟩

end Recorded

end Firmware
