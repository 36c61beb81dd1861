/-
  Firmware: register files reached through handles. What is asked of one file through all of its
  handles is asked of it as if there were no other file and no more than one handle (`run_file`).
  So a read through any handle answers what was stored last through any other, and the record
  holds the accesses made through all of them: `latest_write_stands`. Memory that is asked the same
  answers the same.
-/
import Firmware.Proofs.Registers.History

namespace Firmware

/-! ## One file among others -/

/-- What is asked of one file, through whichever of its handles. -/
def askedOf (number : Nat) (operations : List (Handle × FileOperation)) : List FileOperation :=
  (operations.filter fun asked => asked.1.file = number).map Prod.snd

/-- The steps on one file, through whichever of its handles. -/
def stepsOn (number : Nat) (steps : List HandleStep) : List FileStep :=
  (steps.filter fun step => step.handle.file = number).map HandleStep.toFileStep

section

variable {number : Nat} {handle : Handle}

theorem askedOf_same (h : handle.file = number) (operation : FileOperation)
    (rest : List (Handle × FileOperation)) :
    askedOf number ((handle, operation) :: rest) = operation :: askedOf number rest := by
  simp [askedOf, h]

theorem askedOf_other (h : handle.file ≠ number) (operation : FileOperation)
    (rest : List (Handle × FileOperation)) :
    askedOf number ((handle, operation) :: rest) = askedOf number rest := by
  simp [askedOf, h]

theorem stepsOn_same (h : handle.file = number) (step : FileStep) (rest : List HandleStep) :
    stepsOn number ({ step with handle } :: rest) = step :: stepsOn number rest := by
  simp [stepsOn, h]

theorem stepsOn_other (h : handle.file ≠ number) (step : FileStep) (rest : List HandleStep) :
    stepsOn number ({ step with handle } :: rest) = stepsOn number rest := by
  simp [stepsOn, h]

end

namespace RegisterFiles

variable (files : RegisterFiles) {number : Nat} {handle : Handle}

theorem perform_same (h : handle.file = number) (operation : FileOperation) :
    (files.perform handle operation).1 = ((files.file number).perform operation).1 ∧
      (files.perform handle operation).2.file number =
        ((files.file number).perform operation).2 := by
  subst h
  exact ⟨rfl, if_pos rfl⟩

theorem perform_other (h : handle.file ≠ number) (operation : FileOperation) :
    (files.perform handle operation).2.file number = files.file number :=
  if_neg h.symm

theorem asked_run (operations : List (Handle × FileOperation)) :
    (files.run operations).1.map (fun step => (step.handle, step.operation)) = operations := by
  induction operations generalizing files with
  | nil => rfl
  | cons asked rest ih => exact congrArg (asked :: ·) (ih _)

/-- A file takes what is meant for it as it would alone. -/
theorem run_file (operations : List (Handle × FileOperation)) (number : Nat) :
    let run := files.run operations
    let alone := (files.file number).run (askedOf number operations)
    stepsOn number run.1 = alone.1 ∧ run.2.file number = alone.2 := by
  -- on the operations still to come, for any state of the files
  induction operations generalizing files with
  | nil => exact ⟨rfl, rfl⟩
  | cons asked rest ih =>
    obtain ⟨handle, operation⟩ := asked
    let step : FileStep := { operation, answer? := (files.perform handle operation).1 }
    obtain ⟨hsteps, hfile⟩ := ih (files.perform handle operation).2
    by_cases h : handle.file = number
    · obtain ⟨hanswer, hafter⟩ := perform_same files h operation
      rw [hafter] at hsteps hfile
      rw [askedOf_same h]
      refine ⟨(stepsOn_same h step _).trans ?_, hfile⟩
      exact congrArg₂ List.cons (congrArg (FileStep.mk operation) hanswer) hsteps
    · rw [perform_other files h] at hsteps hfile
      rw [askedOf_other h]
      exact ⟨(stepsOn_other h step _).trans hsteps, hfile⟩

end RegisterFiles

/-! ## The same calls on memory -/

/-- The call that a step made, if it made one, with its answer. -/
def FileStep.call? (step : FileStep) : Option (RegisterCall × Option UInt32) :=
  match step.operation with
  | .call made => some (made, step.answer?)
  | .preset _ _ | .clear => none

/-- Nothing is asked that memory cannot do: no preset, and calls at its words only. -/
def FileOperation.Suits (memory : Memory) : FileOperation → Prop
  | call made => memory.Has made.address
  | preset _ _ => False
  | clear => True

instance (memory : Memory) (address : UInt64) : Decidable (memory.Has address) :=
  inferInstanceAs (Decidable (_ ∧ _))

instance (memory : Memory) : DecidablePred (FileOperation.Suits memory)
  | .call made => inferInstanceAs (Decidable (memory.Has made.address))
  | .preset _ _ => inferInstanceAs (Decidable False)
  | .clear => inferInstanceAs (Decidable True)

theorem FileOperation.Suits.congr {memory after : Memory} {operation : FileOperation}
    (suits : operation.Suits memory) (same : ∀ address, after.Has address ↔ memory.Has address) :
    operation.Suits after := by
  cases operation with
  | call made => exact (same made.address).mpr suits
  | preset address value => exact suits
  | clear => exact suits

/-- Memory that holds what a register file holds answers the same calls alike. -/
theorem Memory.answers_of_agree {memory : Memory} {file : RegisterFile}
    (operations : List FileOperation) (suits : ∀ operation ∈ operations, operation.Suits memory)
    (agree : ∀ address, memory.Has address → memory.read address = file.value address) :
    let calls := (file.run operations).1.filterMap FileStep.call?
    (registers.performAll (calls.map Prod.fst) memory).1 = calls.map Prod.snd := by
  -- in lock step: a call stores what depends on what is held, and both hold the same
  induction operations generalizing memory file with
  | nil => rfl
  | cons operation rest ih =>
    have hrest : ∀ operation ∈ rest, operation.Suits memory :=
      fun operation hmem => suits operation (List.mem_cons_of_mem _ hmem)
    have hfirst : operation.Suits memory := suits operation List.mem_cons_self
    cases operation with
    | preset address value => exact hfirst.elim
    | clear => exact ih hrest agree
    | call made =>
      have hhas (address : UInt64) :
          (registers.perform made memory).2.Has address ↔ memory.Has address :=
        plain.has_perform made memory address
      have hanswer : (registers.perform made memory).1 = (file.perform (.call made)).1 := by
        rw [RegisterFile.perform_call, plain.perform_eq, agree _ hfirst]
      have hafter (address : UInt64) (h : (registers.perform made memory).2.Has address) :
          (registers.perform made memory).2.read address =
            (file.perform (.call made)).2.value address := by
        have hbefore : memory.Has address := (hhas address).mp h
        rw [plain.value_perform hfirst hbefore, RegisterFile.value_call, agree address hbefore]
      have hothers := ih (fun operation hmem => (hrest operation hmem).congr hhas) hafter
      exact congrArg₂ List.cons hanswer hothers

/-! ## Runs through handles -/

/-- How often a register was read is how many words were read from it. -/
theorem Recorded.readsOf_eq {σ : Type} (recorded : Recorded σ) (address : UInt64) :
    recorded.readsOf address = (wordsRead address recorded.accesses).length := by
  unfold readsOf wordsRead
  induction recorded.accesses with
  | nil => rfl
  | cons access rest ih =>
    cases access with
    | read a word => by_cases h : a = address <;> simp [h, ih]
    | write a word => simp [ih]

/-- **The latest write stands, whichever handle it was made through.** In every run of operations
on register files the steps on one file, through all of its handles, tell its history: a read
answers what was stored last at its address by a write, a read-modify-write or a preset, or zero,
and a read-modify-write is one read of that value followed by one write of what becomes of it. The
file holds what its history says. Its record is what was read and written since the latest
clearing, in order and without the presets, and what was written to a register, or how often it was
read, is told by the record. An operation changes no other file, and no other address of its own.
Zeroed memory that is asked the same calls, all of them at its words, answers the same, if nothing
was preset. -/
theorem latest_write_stands (operations : List (Handle × FileOperation)) (number : Nat) :
    let run := RegisterFiles.run {} operations
    let steps := stepsOn number run.1
    let events := fileHistory (steps.map FileStep.operation)
    let file := run.2.file number
    run.1.map (fun step => (step.handle, step.operation)) = operations ∧
    Along FileStep.Follows steps ∧
    (∀ address, file.value address = heldAfter events address) ∧
    file.accesses = standingAccesses events ∧
    (∀ address, file.writesTo address = wordsWritten address (standingAccesses events) ∧
      file.readsOf address = (wordsRead address (standingAccesses events)).length) ∧
    (∀ handle operation address, handle.file ≠ number ∨ operation.address? ≠ some address →
      ((run.2.perform handle operation).2.file number).value address = file.value address) ∧
    ∀ size, (∀ step ∈ steps, step.operation.Suits (Memory.zeroed size)) →
      let calls := steps.filterMap FileStep.call?
      (Memory.registers.performAll (calls.map Prod.fst) (Memory.zeroed size)).1 =
        calls.map Prod.snd := by
  intro run steps events file
  -- the other files and the choice of handles drop out, and what is left is a run on one file
  let asked := askedOf number operations
  obtain ⟨hsteps, hfile⟩ : steps = (RegisterFile.empty.run asked).1 ∧
      file = (RegisterFile.empty.run asked).2 :=
    RegisterFiles.run_file {} operations number
  obtain ⟨hfollows, hreached⟩ :
      Along FileStep.Follows steps ∧ file.Reached (steps.map FileStep.operation) := by
    rw [hsteps, hfile]
    exact RegisterFile.run_reached asked [] RegisterFile.reached_empty
  refine ⟨RegisterFiles.asked_run {} operations, hfollows, hreached.values, hreached.accesses,
    fun address => ⟨?_, ?_⟩, ?_, ?_⟩
  · rw [← hreached.accesses]
    rfl
  · rw [← hreached.accesses]
    exact file.readsOf_eq address
  · intro handle operation address h
    by_cases hsame : handle.file = number
    · have haddress : operation.address? ≠ some address := h.resolve_left (not_not_intro hsame)
      rw [(RegisterFiles.perform_same run.2 hsame operation).2]
      exact file.value_perform_ne haddress
    · rw [RegisterFiles.perform_other run.2 hsame operation]
  · intro size suits calls
    have hasked : steps.map FileStep.operation = asked := by
      rw [hsteps]
      exact RegisterFile.operations_run RegisterFile.empty asked
    have hsuits : ∀ operation ∈ asked, operation.Suits (Memory.zeroed size) := by
      intro operation hmem
      obtain ⟨step, hstep, rfl⟩ := List.mem_map.mp (hasked ▸ hmem)
      exact suits step hstep
    have hcalls : calls = (RegisterFile.empty.run asked).1.filterMap FileStep.call? :=
      congrArg (List.filterMap FileStep.call?) hsteps
    rw [hcalls]
    exact Memory.answers_of_agree asked hsuits fun address _ => Memory.zeroed_read size address

/-- Three handles of one file take turns, in blocks and by addresses, while another file is preset
at the same address. -/
theorem latest_write_stands_three_handles :
    let first : Handle := .made 0
    let second : Handle := .copy first
    let third : Handle := .copy second
    let other : Handle := .made 1
    let operations : List (Handle × FileOperation) := [
      (second, .call ⟨.block 0x10, 0x04, .write 1⟩),
      (other, .preset 0x14 7),
      (first, .call ⟨.whole, 0x14, .setBits 4⟩),
      (third, .clear),
      (third, .call ⟨.block 0x14, 0x00, .modify (· * 2)⟩),
      (other, .call ⟨.whole, 0x14, .read⟩),
      (second, .call ⟨.whole, 0x14, .read⟩)]
    let run := RegisterFiles.run {} operations
    let steps := stepsOn 0 run.1
    let calls := steps.filterMap FileStep.call?
    (run.2.file 0).accesses = [.read 0x14 5, .write 0x14 10, .read 0x14 10] ∧
    ((run.2.perform other (.preset 0x14 9)).2.file 0).value 0x14 = 10 ∧
    (∀ step ∈ steps, step.operation.Suits (Memory.zeroed 8)) ∧
    (Memory.registers.performAll (calls.map Prod.fst) (Memory.zeroed 8)).1 =
      [none, none, none, some 10] := by
  intro first second third other operations run steps calls
  obtain ⟨-, -, hvalues, haccesses, -, hothers, hmemory⟩ := latest_write_stands operations 0
  have suits : ∀ step ∈ steps, step.operation.Suits (Memory.zeroed 8) := by decide +kernel
  refine ⟨?_, ?_, suits, (hmemory 8 suits).trans ?_⟩
  · rw [haccesses]
    decide +kernel
  · rw [hothers other _ _ (.inl (by decide)), hvalues]
    decide +kernel
  · decide +kernel

end Firmware
