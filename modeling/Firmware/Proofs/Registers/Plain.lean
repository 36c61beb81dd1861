/-
  Firmware: registers that behave as memory. A read of theirs answers what the register holds and
  leaves everything as it was, and a write changes its own register, so that what a call answers
  and what it stores depend on one value alone. Sparse registers are of this kind, and memory is at
  the addresses of its words.
-/
import Firmware.Proofs.Recording
import Firmware.Registers.Memory
import Firmware.Registers.Operation

namespace Firmware

variable {σ : Type}

/-- The address of a place in a view. An offset that leads beyond the last address wraps around. -/
def RegisterView.address : RegisterView → UInt64 → UInt64
  | whole, address => address
  | block base, offset => base + offset

namespace RegisterCall

/-- The register that a call goes to. -/
def address (call : RegisterCall) : UInt64 := call.view.address call.place

/-- What a call answers if its register holds `held`. -/
def answer? (call : RegisterCall) (held : UInt32) : Option UInt32 :=
  match call.action with
  | .read => some held
  | _ => none

/-- What a call stores if its register holds `held`. -/
def stored? (call : RegisterCall) (held : UInt32) : Option UInt32 :=
  match call.action with
  | .read => none
  | .write value => some value
  | .setBits bits => some (held ||| bits)
  | .clearBits bits => some (held &&& ~~~bits)
  | .modify f => some (f held)

/-- The accesses that a call is made of if its register holds `held`: except for a plain write it
begins with a read, and what it stores is written once. -/
def accesses (call : RegisterCall) (held : UInt32) : List Access :=
  let stores := (call.stored? held).toList.map (Access.write call.address)
  match call.action with
  | .write _ => stores
  | _ => .read call.address held :: stores

end RegisterCall

/-! ## Calls on any registers -/

/-- The state that a call leaves behind if its register holds `held`. -/
def Registers.store (registers : Registers σ) (call : RegisterCall) (held : UInt32) (s : σ) : σ :=
  (call.stored? held).elim s fun word => registers.write call.address word s

namespace Recorded

variable (registers : Registers σ) (call : RegisterCall) (r : Recorded σ)

theorem perform_fst :
    (registers.recorded.perform call r).1 = (registers.perform call r.state).1 := by
  obtain ⟨view, place, action⟩ := call
  cases view <;> cases action <;> rfl

theorem state_perform :
    (registers.recorded.perform call r).2.state = (registers.perform call r.state).2 := by
  obtain ⟨view, place, action⟩ := call
  cases view <;> cases action <;> rfl

/-- A call is recorded by the accesses that it is made of. -/
theorem accesses_perform : (registers.recorded.perform call r).2.accesses =
    r.accesses ++ call.accesses (registers.read call.address r.state).1 := by
  obtain ⟨view, place, action⟩ := call
  cases view <;> cases action with
  | read => exact accesses_read registers _ r
  | write value => exact accesses_write registers _ value r
  | setBits bits => exact accesses_modify_eq registers _ (· ||| bits) r
  | clearBits bits => exact accesses_modify_eq registers _ (· &&& ~~~bits) r
  | modify f => exact accesses_modify_eq registers _ f r

end Recorded

/-! ## Plain registers -/

/-- Registers that behave as memory at the addresses they have. -/
structure Registers.Plain (registers : Registers σ) (value : σ → UInt64 → UInt32)
    (has : σ → UInt64 → Prop) : Prop where
  read : ∀ s address, registers.read address s = (value s address, s)
  write : ∀ {s a b}, has s a → has s b → ∀ word,
    value (registers.write a word s) b = if b = a then word else value s b
  has_write : ∀ s a word b, has (registers.write a word s) b ↔ has s b

namespace Registers.Plain

variable {registers : Registers σ} {value : σ → UInt64 → UInt32} {has : σ → UInt64 → Prop}
  {s : σ} {a : UInt64}

theorem perform_eq (plain : registers.Plain value has) (call : RegisterCall) (s : σ) :
    let held := value s call.address
    registers.perform call s = (call.answer? held, registers.store call held s) := by
  have hmodify (address : UInt64) (f : UInt32 → UInt32) :
      registers.modify address f s = registers.write address (f (value s address)) s := by
    unfold modify
    rw [plain.read]
  obtain ⟨view, place, action⟩ := call
  cases view <;> cases action with
  | read => exact congrArg (fun answer => (some answer.1, answer.2)) (plain.read s _)
  | write word => rfl
  | setBits bits => exact congrArg (Prod.mk none) (hmodify _ (· ||| bits))
  | clearBits bits => exact congrArg (Prod.mk none) (hmodify _ (· &&& ~~~bits))
  | modify f => exact congrArg (Prod.mk none) (hmodify _ f)

/-- After a call the register that it went to holds what it stored, and any other holds what it
held. -/
theorem value_perform (plain : registers.Plain value has) {call : RegisterCall}
    (hcall : has s call.address) (ha : has s a) :
    value (registers.perform call s).2 a =
      if a = call.address then (call.stored? (value s a)).getD (value s a) else value s a := by
  let held := value s call.address
  have hstore : value (registers.store call held s) a =
      if a = call.address then (call.stored? held).getD (value s a) else value s a := by
    unfold store
    cases call.stored? held with
    | none => exact (ite_self _).symm
    | some word => exact plain.write hcall ha word
  rw [plain.perform_eq]
  refine hstore.trans ?_
  split
  · next same => rw [same]
  · rfl

theorem has_perform (plain : registers.Plain value has) (call : RegisterCall) (s : σ) (a : UInt64) :
    has (registers.perform call s).2 a ↔ has s a := by
  rw [plain.perform_eq]
  unfold store
  cases call.stored? (value s call.address) with
  | none => exact Iff.rfl
  | some word => exact plain.has_write s call.address word a

end Registers.Plain

theorem Cells.plain : Cells.registers.Plain Cells.get fun _ _ => True where
  read _ _ := rfl
  write {cells a b} _ _ word := get_set cells a b word
  has_write _ _ _ _ := Iff.rfl

namespace Memory

/-- The address is that of a word of the memory. -/
def Has (memory : Memory) (address : UInt64) : Prop :=
  address.toNat % 4 = 0 ∧ address.toNat / 4 < memory.words.size

/-- Words do not overlap. -/
theorem read_write {memory : Memory} {a b : UInt64} (ha : memory.Has a) (hb : memory.Has b)
    (word : UInt32) : (memory.write a word).read b = if b = a then word else memory.read b := by
  obtain ⟨haligned, hinside⟩ := ha
  have hsame : a.toNat / 4 = b.toNat / 4 ↔ b = a := by
    have hother : b.toNat % 4 = 0 := hb.1
    rw [← UInt64.toNat_inj]
    omega
  unfold read write
  rw [Array.getD_eq_getD_getElem?, Array.getElem?_setIfInBounds, Array.getD_eq_getD_getElem?]
  by_cases h : b = a
  · rw [if_pos h, if_pos (hsame.mpr h), if_pos hinside]
    rfl
  · rw [if_neg h, if_neg fun same => h (hsame.mp same)]

theorem size_write (memory : Memory) (address : UInt64) (word : UInt32) :
    (memory.write address word).words.size = memory.words.size :=
  Array.size_setIfInBounds

theorem plain : registers.Plain read Has where
  read _ _ := rfl
  write ha hb word := read_write ha hb word
  has_write memory a word b := by
    unfold Has
    rw [show (registers.write a word memory).words.size = _ from size_write memory a word]

theorem zeroed_read (size : Nat) (address : UInt64) : (zeroed size).read address = 0 := by
  unfold read zeroed
  rw [Array.getD_eq_getD_getElem?, Array.getElem?_replicate]
  split <;> rfl

end Memory

end Firmware
