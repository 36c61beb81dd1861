/-
  Firmware: runs that complete. Only the controller can stop a run of interrupt operations, so as
  long as it is in a state in which it meets no fault, and whatever else is asked of it keeps it
  so, every run completes and leaves it so.
-/
import Firmware.Proofs.Interrupts.History

namespace Firmware

variable {κ η α : Type}

/-- Whatever the table asks of a controller that is ready meets no fault and leaves it ready. -/
structure Faultless [InterruptController κ] (Ready : κ → Prop) : Prop where
  setMasked {c : κ} (ready : Ready c) (line : Nat) (mask : Bool) :
    ∃ result after, InterruptController.setMasked line mask c = (.ok result, after) ∧ Ready after
  captured {c : κ} (ready : Ready c) : Ready (InterruptController.saveAndDisable c).2
  written {c : κ} (ready : Ready c) (word : UInt64) : Ready (InterruptController.restore word c)

/-- An operation past the table meets no fault on a controller that is ready and leaves it ready. -/
def InterruptOperation.Keeps (Ready : κ → Prop) : InterruptOperation κ η α → Prop
  | .controller act => ∀ c, Ready c → ∃ answer after, act c = (.ok answer, after) ∧ Ready after
  | _ => True

namespace InterruptRun

open InterruptOperation

variable [InterruptController κ] {Ready : κ → Prop} {run next : InterruptRun κ η}
  {operation : InterruptOperation κ η α} {answer : InterruptAnswer η α}

theorem ready_entered (faultless : Faultless Ready) (ready : Ready run.table.controller) :
    Ready run.entered.table.controller := by
  show Ready run.table.saveAndDisable.2.controller
  rw [InterruptTable.saveAndDisable_controller]
  exact faultless.captured ready

/-- Every operation leaves a controller ready. -/
theorem Effect.ready (effect : Effect run operation answer next) (faultless : Faultless Ready)
    (ready : Ready run.table.controller) (keeps : operation.Keeps Ready) :
    Ready next.table.controller := by
  cases effect with
  | @masked _ line mask result controller asks h answered journal =>
    obtain ⟨result', after, hset, hready⟩ := faultless.setMasked ready line mask
    rw [answered] at hset
    obtain ⟨-, rfl⟩ := Prod.mk.inj hset
    exact hready
  | removed line =>
    show Ready (run.table.remove line).controller
    rw [InterruptTable.remove_controller]
    exact ready
  | saved => exact ready_entered faultless ready
  | restored flags => exact faultless.written ready _
  | @acted act answer controller answered =>
    obtain ⟨answer', after, hact, hready⟩ := keeps _ ready
    rw [answered] at hact
    obtain ⟨-, rfl⟩ := Prod.mk.inj hact
    exact hready
  | registered | notRegistered | dispatched | notMasked | described | listed => exact ready

theorem on_mask_completes (faultless : Faultless Ready) (ready : Ready run.table.controller)
    (line : Nat) (mask : Bool) (done : InterruptNote) :
    ∃ answer next, run.on .result (run.table.mask line mask done) =
      (.ok (answer : InterruptAnswer η α), next) := by
  by_cases inside : line < interruptLines
  · obtain ⟨result, controller, hset, -⟩ := faultless.setMasked ready line mask
    obtain ⟨journal, hmask⟩ := InterruptTable.mask_of_lt inside hset done
    exact ⟨_, _, by rw [hmask]; rfl⟩
  · exact ⟨_, _, by rw [InterruptTable.mask_of_le (Nat.not_lt.mp inside)]; rfl⟩

/-- Over a ready controller an operation that is no critical section meets no fault. -/
theorem perform_completes (faultless : Faultless Ready) (ready : Ready run.table.controller)
    (keeps : operation.Keeps Ready) (single : operation.body? = none) :
    ∃ answer next, run.perform operation = (.ok answer, next) := by
  cases operation with
  | critical body => cases single
  | enable line => exact on_mask_completes faultless ready line false (.enabled line)
  | disable line => exact on_mask_completes faultless ready line true (.disabled line)
  | controller act =>
    obtain ⟨answer, after, hact, -⟩ := keeps _ ready
    exact ⟨_, _, by rw [perform, hact]; rfl⟩
  | register | remove | dispatch | save | restore | descriptor | registeredLines =>
    exact ⟨_, _, rfl⟩

theorem perform_plain_ready (faultless : Faultless Ready) (ready : Ready run.table.controller)
    (keeps : operation.Keeps Ready) (single : operation.body? = none) :
    ∃ answer next, run.perform operation = (.ok answer, next) ∧ Ready next.table.controller := by
  obtain ⟨answer, next, hperform⟩ := perform_completes faultless ready keeps single
  exact ⟨answer, next, hperform, (effect_perform single hperform).ready faultless ready keeps⟩

mutual

theorem perform_ready (faultless : Faultless Ready) {run : InterruptRun κ η}
    (ready : Ready run.table.controller) : ∀ operation : InterruptOperation κ η α,
      (∀ part ∈ operation.parts, part.Keeps Ready) →
      ∃ answer next, run.perform operation = (.ok answer, next) ∧ Ready next.table.controller
  | .critical body, keeps => by
    obtain ⟨answers, inside, hbody, hready⟩ := performAll_ready faultless
      (ready_entered faultless ready) body fun part hmem => keeps part (List.mem_append_left _ hmem)
    exact ⟨_, _, perform_critical_of_ok hbody, faultless.written hready _⟩
  | .register .., keeps | .remove _, keeps | .dispatch _, keeps | .enable _, keeps
  | .disable _, keeps | .save, keeps | .restore _, keeps | .descriptor _, keeps
  | .registeredLines, keeps | .controller _, keeps =>
    perform_plain_ready faultless ready (keeps _ List.mem_cons_self) rfl

/-- Over a controller that is ready every run completes, and it is ready after it. -/
theorem performAll_ready (faultless : Faultless Ready) {run : InterruptRun κ η}
    (ready : Ready run.table.controller) : ∀ operations : List (InterruptOperation κ η α),
      (∀ part ∈ partsAll operations, part.Keeps Ready) →
      ∃ answers after, run.performAll operations = (.ok answers, after) ∧
        Ready after.table.controller
  | [], _ => ⟨[], run, rfl, ready⟩
  | operation :: rest, keeps => by
    obtain ⟨answer, next, hperform, hnext⟩ := perform_ready faultless ready operation
      fun part hmem => keeps part (List.mem_append_left _ hmem)
    obtain ⟨answers, after, hrest, hafter⟩ := performAll_ready faultless hnext rest
      fun part hmem => keeps part (List.mem_append_right _ hmem)
    refine ⟨(answer, next.enabled) :: answers, after, ?_, hafter⟩
    simp only [performAll_cons, hperform, hrest]

end

end InterruptRun

end Firmware
