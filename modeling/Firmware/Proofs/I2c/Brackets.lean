/-
  Firmware: which registers a transaction accesses, on any hardware. Looks at the status come
  first. If the bus gets free, START is set in the control register, then the status is looked
  at and data is moved without any access to the control register, and the last access sets
  STOP there, also where the transfer ran out of its budget.
-/
import Firmware.Proofs.I2c.Outcomes
import Firmware.Proofs.I2c.RegisterMap
import Firmware.Proofs.I2c.TransferSteps
import Firmware.Proofs.Recording

namespace Firmware.I2c

/-- Looks at the status. -/
def IsLook (base : UInt64) : Access → Prop
  | .read address _ => address = base + statusOffset
  | .write _ _ => False

/-- What a transfer is made of: looks at the status, and accesses to the data register. -/
def IsTransfer (base : UInt64) : Access → Prop
  | .read address _ => address = base + statusOffset ∨ address = base + dataOffset
  | .write address _ => address = base + dataOffset

/-- The accesses of a transaction with an outcome. -/
inductive Bracketed (base : UInt64) : Outcome → List Access → Prop where
  /-- The bus was held for the whole wait. -/
  | held {looks : List Access} (hlooks : ∀ access ∈ looks, IsLook base access) :
    Bracketed base (.error .busFree) looks
  /-- START and STOP are set in the control register, each in the value just read from there. -/
  | moved {outcome : Outcome} {looks transfer : List Access} (first last : UInt32)
    (houtcome : outcome ≠ .error .busFree)
    (hlooks : ∀ access ∈ looks, IsLook base access)
    (htransfer : ∀ access ∈ transfer, IsTransfer base access) :
    Bracketed base outcome (looks ++
      [.read (base + controlOffset) first,
        .write (base + controlOffset) (first ||| startBit)] ++
      transfer ++
      [.read (base + controlOffset) last,
        .write (base + controlOffset) (last ||| stopBit)])

/-- Whether an access is to the control register. -/
def isControl (base : UInt64) : Access → Bool
  | .read address _ => address = base + controlOffset
  | .write address _ => address = base + controlOffset

theorem isControl_false_of_isTransfer {base : UInt64} (access : Access)
    (h : IsTransfer base access) : isControl base access = false := by
  have hstatus : base + statusOffset ≠ base + controlOffset := (control_ne_status base).symm
  have hdata : base + dataOffset ≠ base + controlOffset := (control_ne_data base).symm
  cases access with
  | read address value =>
    rcases h with rfl | rfl
    · exact decide_eq_false hstatus
    · exact decide_eq_false hdata
  | write address value =>
    subst h
    exact decide_eq_false hdata

theorem isTransfer_of_isLook {base : UInt64} (access : Access) (h : IsLook base access) :
    IsTransfer base access := by
  cases access with
  | read address value => exact .inl h
  | write address value => exact h.elim

theorem filter_isControl {base : UInt64} {accesses : List Access}
    (h : ∀ access ∈ accesses, IsTransfer base access) :
    accesses.filter (isControl base) = [] := by
  rw [List.filter_eq_nil_iff]
  intro access hmem
  rw [isControl_false_of_isTransfer access (h access hmem)]
  exact Bool.false_ne_true

/-- A transaction that found the bus held did not access the control register. -/
theorem Bracketed.control_held {base : UInt64} {accesses : List Access}
    (h : Bracketed base (.error .busFree) accesses) : accesses.filter (isControl base) = [] := by
  cases h with
  | held hlooks =>
    exact filter_isControl fun access hmem => isTransfer_of_isLook access (hlooks access hmem)
  | moved first last houtcome => exact absurd rfl houtcome

/-- Every other transaction read and wrote the control register exactly twice. -/
theorem Bracketed.control_moved {base : UInt64} {outcome : Outcome} {accesses : List Access}
    (h : Bracketed base outcome accesses) (houtcome : outcome ≠ .error .busFree) :
    ∃ first last, accesses.filter (isControl base) =
      [.read (base + controlOffset) first, .write (base + controlOffset) (first ||| startBit),
        .read (base + controlOffset) last, .write (base + controlOffset) (last ||| stopBit)] := by
  cases h with
  | held hlooks => exact absurd rfl houtcome
  | moved first last _ hlooks htransfer =>
    have hlooks := filter_isControl fun access hmem =>
      isTransfer_of_isLook access (hlooks access hmem)
    refine ⟨first, last, ?_⟩
    simp [hlooks, filter_isControl htransfer, isControl]

section

open Recorded

variable {σ : Type} (hardware : Hardware σ) (base : UInt64)

/-! ## Waiting -/

theorem awaitStatus_adds (budget : Nat) (ready : StatusFlags → Bool) (r : Recorded σ) :
    Adds (IsLook base) r
      (awaitStatus (hardware.recorded.window base) budget ready r).2 := by
  refine pollFrom_closed Adds.refl Adds.trans (fun r => ?_) (fun r => ?_) budget 1 r
  · exact adds_read hardware.toRegisters r fun _ => rfl
  · exact Adds.refl (P := IsLook base) _

/-- All that a transfer accesses is the status and the data register. -/
theorem transferSteps_adds :
    TransferSteps (hardware.recorded.window base) (Adds (σ := σ) (IsTransfer base)) where
  refl := Adds.refl
  trans := Adds.trans
  look r := adds_read hardware.toRegisters r fun _ => .inl rfl
  take r := adds_read hardware.toRegisters r fun _ => .inr rfl
  put _ r := adds_write hardware.toRegisters r rfl
  relax _ := Adds.refl (P := IsTransfer base) _

/-! ## Transactions -/

theorem accesses_setBits (bits : UInt32) (r : Recorded σ) :
    ∃ value, ((hardware.recorded.window base).setBits controlOffset bits r).accesses =
      r.accesses ++ [.read (base + controlOffset) value,
        .write (base + controlOffset) (value ||| bits)] :=
  accesses_modify hardware.toRegisters (base + controlOffset) (· ||| bits) r

/-- A transaction either looks at the status for a whole wait, or it is its transfer between the
setting of START and the setting of STOP. -/
theorem run_parts (t : Transaction) (r : Recorded σ) :
    (∃ looks after, t.run (hardware.recorded.window base) r = (.error .busFree, t.payload, after) ∧
      (∀ access ∈ looks, IsLook base access) ∧ after.accesses = r.accesses ++ looks) ∨
    ∃ looks first opened last after,
      let moved := t.transfer (hardware.recorded.window base) opened
      t.run (hardware.recorded.window base) r = (moved.1, moved.2.1, after) ∧
      (∀ access ∈ looks, IsLook base access) ∧
      opened.accesses = r.accesses ++ looks ++ [.read (base + controlOffset) first,
        .write (base + controlOffset) (first ||| startBit)] ∧
      after.accesses = moved.2.2.accesses ++ [.read (base + controlOffset) last,
        .write (base + controlOffset) (last ||| stopBit)] := by
  have hawait : Adds (IsLook base) r (awaitFree (hardware.recorded.window base) t.budget r).2 :=
    awaitStatus_adds hardware base t.budget _ r
  unfold Transaction.run
  generalize awaitFree (hardware.recorded.window base) t.budget r = awaited at hawait ⊢
  obtain ⟨answer, s⟩ := awaited
  obtain ⟨looks, hlooks, hs⟩ := hawait
  cases answer with
  | error e => exact .inl ⟨looks, s, rfl, hlooks, hs⟩
  | ok n =>
    obtain ⟨first, hstart⟩ := accesses_setBits hardware base startBit s
    obtain ⟨last, hstop⟩ := accesses_setBits hardware base stopBit
      (t.transfer (hardware.recorded.window base)
        ((hardware.recorded.window base).setBits controlOffset startBit s)).2.2
    rw [hs] at hstart
    exact .inr ⟨looks, first, _, last, _, rfl, hlooks, hstart, hstop⟩

/-- START and STOP bracket every transaction that finds the bus free, and no other sets them. -/
theorem run_bracketed (t : Transaction) (r : Recorded σ) :
    ∃ added, Bracketed base (t.run (hardware.recorded.window base) r).1 added ∧
      (t.run (hardware.recorded.window base) r).2.2.accesses = r.accesses ++ added := by
  rcases run_parts hardware base t r with ⟨looks, after, hrun, hlooks, hadded⟩ |
    ⟨looks, first, opened, last, after, hrun, hlooks, hopened, hadded⟩
  · rw [hrun]
    exact ⟨looks, .held hlooks, hadded⟩
  · obtain ⟨transfer, hinner, hmoved⟩ := (transferSteps_adds hardware base).transfer t opened
    have houtcome : (t.transfer (hardware.recorded.window base) opened).1 ≠ .error .busFree :=
      fun h => nomatch transfer_phase (hardware.recorded.window base) t opened h
    rw [hrun]
    refine ⟨_, .moved first last houtcome hlooks hinner, ?_⟩
    rw [hadded, hmoved, hopened]
    simp only [List.append_assoc]

end

end Firmware.I2c
