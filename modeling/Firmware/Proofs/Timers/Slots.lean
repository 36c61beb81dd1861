/-
  Firmware: which slots are taken. A slot is taken from the start that was given it until it is
  stopped, alone or with all others, whatever else happens in between; so what the latest of these
  events says of a slot is what the table says of it. A start is given the least slot that is not
  taken, which is how no two running timers ever share one. `slots_given_once` says so of every run.
-/
import Firmware.Proofs.Events
import Firmware.Proofs.Timers.Schedule

namespace Firmware

variable {κ : Type}

/-- An operation on a timer table with its answer. -/
abbrev TimerStep (κ : Type) := TimerOperation κ × TimerAnswer κ

/-- What a step says of a slot: that a timer was started in it, or that none runs in it any more. -/
def TimerStep.takes? (id : TimerId) : TimerStep κ → Option Bool
  | (.start _ _, .started (.ok started)) => if started = id then some true else none
  | (.stop stopped, _) => if stopped = id then some false else none
  | (.stopAll, _) => some false
  | _ => none

/-- A slot is taken after some steps: the latest that says anything of it is a start in it. -/
def Taken (steps : List (TimerStep κ)) (id : TimerId) : Bool :=
  latest (TimerStep.takes? id) false steps

namespace TimerTable

variable {table : TimerTable κ} {id : TimerId}

/-- The operations of a run with their answers. -/
def steps (table : TimerTable κ) (operations : List (TimerOperation κ)) : List (TimerStep κ) :=
  operations.zip (table.performAll operations).1

theorem steps_cons (table : TimerTable κ) (operation : TimerOperation κ)
    (rest : List (TimerOperation κ)) : table.steps (operation :: rest) =
      (operation, (table.perform operation).1) :: (table.perform operation).2.steps rest :=
  rfl

/-! ## Free slots -/

theorem isActive_eq (table : TimerTable κ) (id : TimerId) :
    table.isActive id = (table.slot id).isSome :=
  rfl

theorem freeSlot?_eq (table : TimerTable κ) :
    table.freeSlot? = (List.finRange timerSlots).find? fun id => !table.isActive id := by
  have hfree (id : TimerId) : table.slots[id].isNone = !table.isActive id :=
    (Option.not_isSome _).symm
  unfold freeSlot?
  simp only [hfree]

/-- The free slot that is found is the least one. -/
theorem freeSlot?_eq_some_iff : table.freeSlot? = some id ↔
    table.isActive id = false ∧ ∀ other < id, table.isActive other = true := by
  rw [freeSlot?_eq, List.find?_eq_some_iff_getElem, Bool.not_eq_true']
  simp only [Bool.not_not, List.getElem_finRange]
  constructor
  · rintro ⟨hid, i, hi, rfl, hbefore⟩
    refine ⟨hid, fun other hother => ?_⟩
    exact hbefore other hother
  · rintro ⟨hid, htaken⟩
    exact ⟨hid, id.val, by simp, rfl, fun j hj => htaken _ hj⟩

theorem freeSlot?_eq_none_iff : table.freeSlot? = none ↔ ∀ id, table.isActive id = true := by
  rw [freeSlot?_eq, List.find?_eq_none]
  simp

theorem start_eq_ok_iff {interval : UInt32} {callback : κ} :
    (table.start interval callback).1 = .ok id ↔ table.freeSlot? = some id := by
  constructor
  · exact freeSlot?_of_start
  · intro h
    obtain ⟨journal, hstart⟩ := start_of_free h interval callback
    rw [hstart]

theorem start_eq_error_iff {interval : UInt32} {callback : κ} {e : Error} :
    (table.start interval callback).1 = .error e ↔ e = .busy ∧ table.freeSlot? = none := by
  cases hfree : table.freeSlot? with
  | none =>
    rw [start_of_full hfree]
    constructor
    · intro h
      exact ⟨(Except.error.inj h).symm, rfl⟩
    · intro h
      rw [h.1]
  | some free =>
    obtain ⟨journal, hstart⟩ := start_of_free hfree interval callback
    rw [hstart]
    constructor
    · intro h
      cases h
    · intro h
      cases h.2

/-! ## What steps say -/

/-- A step leaves a slot taken if it says so, and as it was if it says nothing. -/
theorem isActive_perform (fits : table.Fits) (operation : TimerOperation κ) (id : TimerId) :
    (table.perform operation).2.isActive id =
      (TimerStep.takes? id (operation, (table.perform operation).1)).getD (table.isActive id) := by
  rw [isActive_eq, slot_perform fits]
  cases operation with
  | start interval callback =>
    rw [slotAfter]
    cases hfree : table.freeSlot? with
    | none =>
      rw [perform, start_of_full hfree, if_neg (by simp)]
      rfl
    | some free =>
      obtain ⟨journal, hstart⟩ := start_of_free hfree interval callback
      rw [perform, hstart, TimerStep.takes?]
      by_cases hid : free = id
      · rw [if_pos (congrArg some hid), if_pos hid]
        rfl
      · rw [if_neg (fun h => hid (Option.some.inj h)), if_neg hid]
        rfl
  | stop other =>
    rw [slotAfter, TimerStep.takes?]
    split <;> rfl
  | stopAll => rfl
  | isActive _ | activeCount => rfl
  | tick | advance now => exact Option.isSome_map

theorem isActive_performAll (fits : table.Fits) (operations : List (TimerOperation κ))
    (id : TimerId) : (table.performAll operations).2.isActive id =
      latest (TimerStep.takes? id) (table.isActive id) (table.steps operations) := by
  induction operations generalizing table with
  | nil => rfl
  | cons operation rest ih =>
    rw [steps_cons, latest_cons, latest_singleton, ← isActive_perform fits]
    exact ih (fits.perform operation)

theorem exists_start_of_takes {operation : TimerOperation κ}
    (h : TimerStep.takes? id (operation, (table.perform operation).1) = some true) :
    ∃ interval callback, (table.start interval callback).1 = .ok id := by
  cases operation with
  | start interval callback =>
    refine ⟨interval, callback, ?_⟩
    change TimerStep.takes? id
      (.start interval callback, .started (table.start interval callback).1) = some true at h
    cases hstart : (table.start interval callback).1 with
    | error e =>
      rw [hstart] at h
      cases h
    | ok started =>
      rw [hstart, TimerStep.takes?] at h
      split at h
      · next hid => rw [hid]
      · cases h
  | stop other =>
    rw [TimerStep.takes?] at h
    split at h <;> cases h
  | stopAll | isActive _ | activeCount | tick | advance now => cases h

/-- A start is given a slot only if the steps before it have left that free. -/
theorem along_free (fits : table.Fits) (operations : List (TimerOperation κ)) (id : TimerId) :
    Along (fun before step => step.takes? id = some true →
      latest (TimerStep.takes? id) (table.isActive id) before = false)
      (table.steps operations) := by
  induction operations generalizing table with
  | nil => exact along_nil
  | cons operation rest ih =>
    have hrest := ih (fits.perform operation)
    rw [steps_cons]
    refine along_cons (fun htaken => ?_) (hrest.mono fun before step h htaken => ?_)
    · obtain ⟨interval, callback, hstart⟩ := exists_start_of_takes htaken
      exact (freeSlot?_eq_some_iff.mp (start_eq_ok_iff.mp hstart)).1
    · rw [latest_cons, latest_singleton, ← isActive_perform fits]
      exact h htaken

theorem isActive_empty (id : TimerId) : (empty : TimerTable κ).isActive id = false := by
  rw [isActive_eq, slot_empty]
  rfl

theorem stopAt_val (table : TimerTable κ) (id : TimerId) :
    table.stopAt id.val = (.ok (), table.stop id) :=
  dif_pos id.isLt

theorem slot_stop (fits : table.Fits) (stopped id : TimerId) :
    (table.stop stopped).slot id = if stopped = id then none else table.slot id :=
  slot_perform fits (.stop stopped) id

/-- A start fills the slot that it is given and changes no other. -/
theorem slot_start (fits : table.Fits) {interval : UInt32} {callback : κ}
    (h : (table.start interval callback).1 = .ok id) :
    (table.start interval callback).2.slot id = some { interval, callback, counter := 0 } ∧
      ∀ other ≠ id, (table.start interval callback).2.slot other = table.slot other := by
  have hfree := start_eq_ok_iff.mp h
  constructor
  · have hslot := slot_perform fits (.start interval callback) id
    rwa [slotAfter, if_pos hfree] at hslot
  · intro other hother
    have hslot := slot_perform fits (.start interval callback) other
    rwa [slotAfter, hfree, if_neg (by simpa using hother.symm)] at hslot

theorem activeCount_eq (table : TimerTable κ) :
    table.activeCount = (List.finRange timerSlots).countP table.isActive := by
  unfold activeCount
  rw [toList_slots, List.countP_map]
  rfl

end TimerTable

/-- Between two starts that are given the same slot the first of the timers is stopped. -/
theorem exists_stop_of_taken_again {before between : List (TimerStep κ)} {first : TimerStep κ}
    {id : TimerId} (hfirst : first.takes? id = some true)
    (hfree : Taken (before ++ first :: between) id = false) :
    ∃ step ∈ between, step.takes? id = some false := by
  by_contra hnone
  have honly : latest (TimerStep.takes? id) true between = true := by
    refine latest_of_only fun step hstep said hsaid => ?_
    cases said with
    | true => rfl
    | false => exact absurd ⟨step, hstep, hsaid⟩ hnone
  unfold Taken at hfree
  rw [latest_append, latest_cons, latest_singleton, hfirst, Option.getD_some, honly] at hfree
  cases hfree

open TimerTable in
/-- **Every slot is given to one timer at a time, and none is lost.** After any run from an empty
table a timer runs in just those slots of which the latest event is a start that was given the slot,
rather than a stop of it or of all, and the number of running timers counts these slots. A start is
given the least slot that is not taken and fills it with a fresh timer; it is refused, as busy and
with the table as it was, exactly if all slots are taken. When a slot is given again, a step between
the two starts has freed it, so two timers that run at the same time have different slots. Stopping
a slot is never refused and empties it, and any index beyond the slots is refused; neither a start
nor a stop changes anything in another slot. Ticks and readings of the source leave every slot as
taken or as free as it was. -/
theorem slots_given_once (operations : List (TimerOperation κ)) :
    let reached := (TimerTable.empty.performAll operations).2
    let steps := TimerTable.empty.steps operations
    (∀ id, reached.isActive id = Taken steps id) ∧
    reached.activeCount = (List.finRange timerSlots).countP (Taken steps) ∧
    (∀ interval callback,
      let started := reached.start interval callback
      (∀ id, started.1 = .ok id ↔
        Taken steps id = false ∧ ∀ other < id, Taken steps other = true) ∧
      (∀ id, started.1 = .ok id →
        started.2.slot id = some { interval, callback, counter := 0 } ∧
        ∀ other ≠ id, started.2.slot other = reached.slot other) ∧
      (∀ e, started.1 = .error e ↔ e = .busy ∧ ∀ id, Taken steps id = true) ∧
      ∀ e, started.1 = .error e → started.2 = reached) ∧
    (∀ before first between second after id,
      steps = before ++ first :: (between ++ second :: after) →
      first.takes? id = some true → second.takes? id = some true →
      ∃ step ∈ between, step.takes? id = some false) ∧
    (∀ id : TimerId,
      let stopped := reached.stopAt id.val
      stopped.1 = .ok () ∧ stopped.2.slot id = none ∧
      ∀ other ≠ id, stopped.2.slot other = reached.slot other) ∧
    (∀ index ≥ timerSlots, reached.stopAt index = (.error (.outOfRange index), reached) ∧
      reached.isActiveAt index = false) ∧
    ∀ id, reached.tick.2.isActive id = reached.isActive id ∧
      ∀ now, (reached.advance now).2.isActive id = reached.isActive id := by
  intro reached steps
  have fits : reached.Fits := fits_empty.performAll operations
  have htaken (id : TimerId) : reached.isActive id = Taken steps id := by
    have hlatest := isActive_performAll fits_empty operations id
    rwa [isActive_empty] at hlatest
  refine ⟨htaken, ?_,
    fun interval callback => ⟨fun id => ?_, fun id => slot_start fits, fun e => ?_, fun e he => ?_⟩,
    ?_, fun id => ⟨?_, ?_, ?_⟩, fun index hindex => ⟨?_, ?_⟩, fun id => ⟨?_, fun now => ?_⟩⟩
  · rw [activeCount_eq]
    exact congrArg (List.countP · _) (funext htaken)
  · rw [start_eq_ok_iff, freeSlot?_eq_some_iff]
    simp only [htaken]
  · rw [start_eq_error_iff, freeSlot?_eq_none_iff]
    simp only [htaken]
  · rw [start_of_full (start_eq_error_iff.mp he).2]
  · intro before first between second after id hsteps hfirst hsecond
    have hsplit : steps = (before ++ first :: between) ++ second :: after := by
      rw [hsteps, List.append_assoc, List.cons_append]
    have hfree := along_free fits_empty operations id _ second after hsplit hsecond
    rw [isActive_empty] at hfree
    exact exists_stop_of_taken_again hfirst hfree
  · rw [stopAt_val]
  · rw [stopAt_val, slot_stop fits, if_pos rfl]
  · intro other hother
    rw [stopAt_val, slot_stop fits, if_neg hother.symm]
  · exact dif_neg (Nat.not_lt.mpr hindex)
  · exact dif_neg (Nat.not_lt.mpr hindex)
  · exact isActive_perform fits .tick id
  · exact isActive_perform fits (.advance now) id

open TimerTable in
/-- A slot that is stopped twice is given again before the slots behind those in use; the slot of
the timer that was not stopped is not. -/
theorem slots_given_once_stopped_twice :
    let first : TimerId := ⟨0, by decide⟩
    let second : TimerId := ⟨1, by decide⟩
    let third : TimerId := ⟨2, by decide⟩
    let between : List (TimerStep Nat) := [(.start 4 11, .started (.ok second)),
      (.stop first, .done), (.tick, .fired {}), (.stop first, .done)]
    let operations := .start 2 10 :: (between.map Prod.fst ++ [.start 3 12])
    let reached := (TimerTable.empty.performAll operations).2
    reached.isActive first = true ∧ reached.activeCount = 2 ∧
    (reached.start 1 13).1 = .ok third ∧
    (∃ step ∈ between, step.takes? first = some false) ∧
    (reached.stopAt first.val).1 = .ok () := by
  intro first second third between operations reached
  obtain ⟨htaken, hcount, hstart, hagain, hstop, -, -⟩ := slots_given_once operations
  refine ⟨?_, ?_, ?_, ?_, (hstop first).1⟩
  · rw [htaken]
    decide +kernel
  · rw [hcount]
    decide +kernel
  · rw [(hstart 1 13).1]
    decide +kernel
  · exact hagain [] (.start 2 10, .started (.ok first)) between
      (.start 3 12, .started (.ok first)) [] first (by with_unfolding_all rfl) rfl rfl

end Firmware
