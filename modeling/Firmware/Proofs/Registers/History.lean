/-
  Firmware: what has happened to a register file. Its operations tell a history of accesses,
  presets and clearings in which every read answers what was stored last at its address. The file
  holds what its history says, and its record is what has been accessed since the latest clearing:
  one operation keeps this (`Reached.perform`), so a run does (`run_reached`).
-/
import Firmware.Proofs.Events
import Firmware.Proofs.Registers.Plain
import Mathlib.Data.List.DropRight

namespace Firmware

/-- Something that happens to a register file. -/
inductive FileEvent where
  | access (access : Access)
  | preset (address : UInt64) (value : UInt32)
  | cleared
  deriving DecidableEq

namespace FileEvent

/-- What an event stores in a register. -/
def stores? (address : UInt64) : FileEvent → Option UInt32
  | access (.write a value) | preset a value => if address = a then some value else none
  | access (.read _ _) | cleared => none

/-- The access that an event is, if it is one. -/
def access? : FileEvent → Option Access
  | access made => some made
  | preset _ _ | cleared => none

end FileEvent

/-- What a register holds after some events: the value stored last in it, or zero. -/
def heldAfter (events : List FileEvent) (address : UInt64) : UInt32 :=
  latest (FileEvent.stores? address) 0 events

/-- The accesses since the latest clearing, or all of them if there was none. -/
def standingAccesses (events : List FileEvent) : List Access :=
  (events.rtakeWhile fun event => event ≠ .cleared).filterMap FileEvent.access?

namespace FileOperation

/-- What happens in an operation after some events. -/
def events (before : List FileEvent) : FileOperation → List FileEvent
  | call made => (made.accesses (heldAfter before made.address)).map .access
  | preset address value => [.preset address value]
  | clear => [.cleared]

/-- What an operation answers after some events. -/
def answer? (before : List FileEvent) : FileOperation → Option UInt32
  | call made => made.answer? (heldAfter before made.address)
  | preset _ _ | clear => none

/-- The register that an operation is about, if it is about one. -/
def address? : FileOperation → Option UInt64
  | call made => some made.address
  | preset address _ => some address
  | clear => none

end FileOperation

/-- All that happens in some operations, one after the other. -/
def fileHistory (operations : List FileOperation) : List FileEvent :=
  operations.foldl (fun before operation => before ++ operation.events before) []

theorem fileHistory_concat (operations : List FileOperation) (operation : FileOperation) :
    fileHistory (operations ++ [operation]) =
      fileHistory operations ++ operation.events (fileHistory operations) :=
  List.foldl_append

/-- An operation answers what the history of those before it says. -/
def FileStep.Follows (before : List FileStep) (step : FileStep) : Prop :=
  step.answer? = step.operation.answer? (fileHistory (before.map FileStep.operation))

/-! ## What events leave -/

section

variable (before : List FileEvent) (address : UInt64)

theorem heldAfter_concat (event : FileEvent) :
    heldAfter (before ++ [event]) address =
      (event.stores? address).getD (heldAfter before address) := by
  unfold heldAfter
  rw [latest_append, latest_singleton]

theorem heldAfter_store {event : FileEvent} {a : UInt64} {value : UInt32}
    (h : event.stores? address = if address = a then some value else none) :
    heldAfter (before ++ [event]) address =
      if address = a then value else heldAfter before address := by
  rw [heldAfter_concat, h]
  split <;> rfl

theorem heldAfter_cleared : heldAfter (before ++ [.cleared]) address = heldAfter before address :=
  heldAfter_concat before address _

theorem heldAfter_read (a : UInt64) (value : UInt32) (after : List FileEvent) :
    heldAfter (before ++ .access (.read a value) :: after) address =
      heldAfter (before ++ after) address := by
  unfold heldAfter
  rw [latest_append, latest_append, latest_cons]
  rfl

/-- The accesses of a call leave the value that it stores. -/
theorem heldAfter_accesses (call : RegisterCall) (held : UInt32) :
    heldAfter (before ++ (call.accesses held).map .access) address =
      if address = call.address then (call.stored? held).getD (heldAfter before address)
      else heldAfter before address := by
  let stores := (call.stored? held).toList.map (Access.write call.address)
  have hstores : heldAfter (before ++ stores.map .access) address =
      if address = call.address then (call.stored? held).getD (heldAfter before address)
      else heldAfter before address := by
    unfold stores
    cases call.stored? held with
    | none =>
      have hnothing : heldAfter (before ++ []) address = heldAfter before address := by
        rw [List.append_nil]
      exact hnothing.trans (ite_self _).symm
    | some word => exact heldAfter_store before address rfl
  have hread := heldAfter_read before address call.address held (stores.map .access)
  unfold RegisterCall.accesses
  cases call.action with
  | write value => exact hstores
  | read => exact hread.trans hstores
  | setBits bits => exact hread.trans hstores
  | clearBits bits => exact hread.trans hstores
  | modify f => exact hread.trans hstores

theorem standingAccesses_accesses (accesses : List Access) :
    standingAccesses (before ++ accesses.map .access) = standingAccesses before ++ accesses := by
  induction accesses using List.reverseRecOn with
  | nil => simp
  | append_singleton earlier access ih =>
    unfold standingAccesses at *
    rw [List.map_append, ← List.append_assoc, List.map_singleton, List.rtakeWhile_concat_pos,
      List.filterMap_append, ih, List.append_assoc]
    · rfl
    · simp

theorem standingAccesses_preset (a : UInt64) (value : UInt32) :
    standingAccesses (before ++ [.preset a value]) = standingAccesses before := by
  unfold standingAccesses
  rw [List.rtakeWhile_concat_pos _ _ _ (by simp), List.filterMap_append]
  exact List.append_nil _

theorem standingAccesses_cleared : standingAccesses (before ++ [.cleared]) = [] := by
  unfold standingAccesses
  rw [List.rtakeWhile_concat_neg _ _ _ (by simp)]
  rfl

end

namespace RegisterFile

/-! ## One operation -/

variable {file : RegisterFile}

/-- The file is as some operations have left it. -/
structure Reached (operations : List FileOperation) (file : RegisterFile) : Prop where
  values : ∀ address, file.value address = heldAfter (fileHistory operations) address
  accesses : file.accesses = standingAccesses (fileHistory operations)

theorem reached_empty : Reached [] empty := ⟨fun _ => rfl, rfl⟩

theorem perform_call (file : RegisterFile) (call : RegisterCall) :
    (file.perform (.call call)).1 = call.answer? (file.value call.address) := by
  show (Cells.registers.recorded.perform call file).1 = _
  rw [Recorded.perform_fst, Cells.plain.perform_eq]
  rfl

theorem value_call (file : RegisterFile) (call : RegisterCall) (address : UInt64) :
    (file.perform (.call call)).2.value address =
      if address = call.address then (call.stored? (file.value address)).getD (file.value address)
      else file.value address := by
  show (Cells.registers.recorded.perform call file).2.state.get address = _
  rw [Recorded.state_perform, Cells.plain.value_perform trivial trivial]
  rfl

theorem value_preset (file : RegisterFile) (a : UInt64) (value : UInt32) (address : UInt64) :
    (file.preset a value).value address = if address = a then value else file.value address :=
  Cells.get_set file.state a address value

/-- What an operation is not about holds what it held. -/
theorem value_perform_ne (file : RegisterFile) {operation : FileOperation} {address : UInt64}
    (h : operation.address? ≠ some address) :
    (file.perform operation).2.value address = file.value address := by
  cases operation with
  | call call => rw [value_call, if_neg fun same => h (congrArg some same.symm)]
  | preset a value =>
    exact (value_preset file a value address).trans (if_neg fun same => h (congrArg some same.symm))
  | clear => rfl

/-- An operation answers what the history says, and with what happens in it the history says again
how the file is. -/
theorem Reached.perform {operations : List FileOperation} (reached : Reached operations file)
    (operation : FileOperation) :
    (file.perform operation).1 = operation.answer? (fileHistory operations) ∧
      Reached (operations ++ [operation]) (file.perform operation).2 := by
  cases operation with
  | call call =>
    have hheld : file.value call.address = heldAfter (fileHistory operations) call.address :=
      reached.values call.address
    refine ⟨(perform_call file call).trans (congrArg _ hheld), ?_, ?_⟩
    · intro address
      rw [fileHistory_concat, FileOperation.events, heldAfter_accesses, value_call, reached.values]
      split
      · next same => rw [same]
      · rfl
    · have hmade : (file.perform (.call call)).2.accesses =
          file.accesses ++ call.accesses (file.value call.address) :=
        Recorded.accesses_perform Cells.registers call file
      rw [fileHistory_concat, FileOperation.events, standingAccesses_accesses, hmade,
        reached.accesses, hheld]
  | preset a value =>
    refine ⟨rfl, ?_, ?_⟩
    · intro address
      rw [fileHistory_concat, FileOperation.events, heldAfter_store _ address rfl, ← reached.values]
      exact value_preset file a value address
    · rw [fileHistory_concat, FileOperation.events, standingAccesses_preset]
      exact reached.accesses
  | clear =>
    refine ⟨rfl, ?_, ?_⟩
    · intro address
      rw [fileHistory_concat, FileOperation.events, heldAfter_cleared]
      exact reached.values address
    · rw [fileHistory_concat, FileOperation.events, standingAccesses_cleared]
      rfl

/-! ## Runs -/

theorem operations_run (file : RegisterFile) (operations : List FileOperation) :
    (file.run operations).1.map FileStep.operation = operations := by
  induction operations generalizing file with
  | nil => rfl
  | cons operation rest ih => exact congrArg (operation :: ·) (ih _)

/-- In a run every step follows those before it, and the file ends up as they have left it. -/
theorem run_reached (operations : List FileOperation) (before : List FileStep)
    (reached : Reached (before.map FileStep.operation) file) :
    let run := file.run operations
    Along (fun steps => FileStep.Follows (before ++ steps)) run.1 ∧
      Reached ((before ++ run.1).map FileStep.operation) run.2 := by
  -- on the operations still to come, for any steps so far and the file they have left
  induction operations generalizing before file with
  | nil => exact ⟨along_nil, (List.append_nil before).symm ▸ reached⟩
  | cons operation rest ih =>
    obtain ⟨hanswer, hafter⟩ := reached.perform operation
    let step : FileStep := { operation, answer? := (file.perform operation).1 }
    have hnext :
        Reached ((before ++ [step]).map FileStep.operation) (file.perform operation).2 := by
      rw [List.map_append]
      exact hafter
    obtain ⟨halong, hlast⟩ := ih _ hnext
    simp only [List.append_assoc, List.singleton_append] at halong hlast
    have hfollows : step.Follows (before ++ []) := (List.append_nil before).symm ▸ hanswer
    exact ⟨along_cons hfollows halong, hlast⟩

end RegisterFile

end Firmware
