/-
  Firmware: the schedule of a timer in a run. Every operation is some ticks or none, followed by a
  change to slots of timers that it starts or stops. So a timer that is not stopped is only made
  older by a run, by the ticks in it, and whatever happens in the other slots it is called at the
  multiples of its period. The main result, `fires_on_period`, says so of every timer in every run.
-/
import Firmware.Proofs.Timers.Ticks
import Firmware.Timers.Operation

namespace Firmware

variable {κ : Type}

/-- The callbacks that an answer says were called. -/
def TimerAnswer.callbacks : TimerAnswer κ → List κ
  | .fired f => f.callbacks
  | _ => []

/-- Whether an operation ends the timer in a slot, if there is one. -/
def TimerOperation.Ends (id : TimerId) : TimerOperation κ → Prop
  | .stop other => other = id
  | .stopAll => True
  | _ => False

namespace TimerTable

variable {table : TimerTable κ} {timer : Timer κ} {id : TimerId}

/-- How many ticks a table runs to catch up with a source that reads `now`. -/
def elapsed (table : TimerTable κ) (now : UInt64) : Nat :=
  table.lastReading.elim 0 fun last => now.toNat - last.toNat

/-- How many ticks an operation runs. -/
def span (table : TimerTable κ) : TimerOperation κ → Nat
  | .tick => 1
  | .advance now => table.elapsed now
  | _ => 0

/-- The calls of the ticks that operations run, by operation and then by tick. -/
def runCalls (table : TimerTable κ) : List (TimerOperation κ) → List (List (List (TimerId × κ)))
  | [] => []
  | operation :: rest =>
    table.callsOf (table.span operation) :: (table.perform operation).2.runCalls rest

/-! ## One operation -/

theorem start_of_free {free : TimerId} (h : table.freeSlot? = some free) (interval : UInt32)
    (callback : κ) : ∃ journal, table.start interval callback = (.ok free,
      { table with
        slots := table.slots.set free (some { interval, callback, counter := 0 }) free.isLt
        journal }) := by
  rw [start, h]
  exact ⟨_, rfl⟩

theorem start_of_full (h : table.freeSlot? = none) (interval : UInt32) (callback : κ) :
    table.start interval callback = (.error .busy, table) := by
  rw [start, h]

theorem free_of_freeSlot? {free : TimerId} (h : table.freeSlot? = some free) :
    table.slot free = none := by
  have hnone := List.find?_some h
  exact Option.isNone_iff_eq_none.mp hnone

theorem freeSlot?_of_start {interval : UInt32} {callback : κ}
    (h : (table.start interval callback).1 = .ok id) : table.freeSlot? = some id := by
  cases hfree : table.freeSlot? with
  | none =>
    rw [start_of_full hfree] at h
    cases h
  | some free =>
    obtain ⟨journal, hstart⟩ := start_of_free hfree interval callback
    rw [hstart] at h
    exact congrArg some (Except.ok.inj h)

theorem stop_eq (table : TimerTable κ) (id : TimerId) :
    ∃ journal, table.stop id =
      { table with slots := table.slots.set id none id.isLt, journal } := by
  cases hslot : table.slots[id] with
  | some timer => exact ⟨table.journal, by rw [stop, hslot]⟩
  | none =>
    have hset : table.slots.set id none = table.slots := by
      apply Vector.ext
      intro i hi
      rw [Vector.getElem_set]
      split
      · next h => subst h; exact hslot.symm
      · rfl
    refine ⟨(table.note (.idleStop id)).journal, ?_⟩
    rw [stop, hslot, hset]
    rfl

/-- After a first reading, catching up is running the ticks that have gone by. -/
theorem advance_of_some {last : UInt64} (h : table.lastReading = some last) (now : UInt64) :
    table.advance now = ((table.ticks (now.toNat - last.toNat)).1,
      { (table.ticks (now.toNat - last.toNat)).2 with lastReading := some now }) := by
  rw [advance, h]
  exact table.ticks_reading (some now) _

theorem advance_eq (table : TimerTable κ) (now : UInt64) :
    ∃ journal, table.advance now = ((table.ticks (table.elapsed now)).1,
      { (table.ticks (table.elapsed now)).2 with lastReading := some now, journal }) := by
  cases hlast : table.lastReading with
  | none =>
    refine ⟨(table.note (.baseline now)).journal, ?_⟩
    rw [advance, elapsed, hlast]
    rfl
  | some last =>
    refine ⟨(table.ticks (table.elapsed now)).2.journal, ?_⟩
    rw [advance_of_some hlast, elapsed, hlast]
    rfl

/-- An operation calls what its ticks call. -/
theorem callbacks_perform (table : TimerTable κ) (operation : TimerOperation κ) :
    (table.perform operation).1.callbacks =
      (table.callsOf (table.span operation)).flatten.map Prod.snd := by
  cases operation with
  | tick =>
    rw [span, ← callbacks_ticks, ticks_one]
    rfl
  | advance now =>
    obtain ⟨journal, hadvance⟩ := table.advance_eq now
    rw [span, ← callbacks_ticks, perform, hadvance]
    rfl
  | start interval callback | stop id | stopAll | isActive id | activeCount => rfl

/-- The number of what an operation fires is that of its calls. -/
theorem count_perform {operation : TimerOperation κ} {fired : Fired κ}
    (h : (table.perform operation).1 = .fired fired) : fired.count = fired.callbacks.length := by
  cases operation with
  | tick =>
    obtain rfl := TimerAnswer.fired.inj h
    exact table.count_tick
  | advance now =>
    obtain ⟨journal, hadvance⟩ := table.advance_eq now
    rw [perform, hadvance] at h
    obtain rfl := TimerAnswer.fired.inj h
    exact table.count_ticks _
  | start interval callback | stop id | stopAll | isActive id | activeCount => cases h

/-- What an operation leaves in a slot. -/
def slotAfter (table : TimerTable κ) (id : TimerId) : TimerOperation κ → Option (Timer κ)
  | .start interval callback =>
    if table.freeSlot? = some id then some { interval, callback, counter := 0 } else table.slot id
  | .stop other => if other = id then none else table.slot id
  | .stopAll => none
  | .isActive _ => table.slot id
  | .activeCount => table.slot id
  | .tick => (table.slot id).map (Timer.after · 1)
  | .advance now => (table.slot id).map (Timer.after · (table.elapsed now))

theorem slot_perform (fits : table.Fits) (operation : TimerOperation κ) (id : TimerId) :
    (table.perform operation).2.slot id = table.slotAfter id operation := by
  cases operation with
  | start interval callback =>
    cases hfree : table.freeSlot? with
    | none =>
      rw [perform, start_of_full hfree, slotAfter, hfree]
      rfl
    | some free =>
      obtain ⟨journal, hstart⟩ := start_of_free hfree interval callback
      rw [perform, hstart, slotAfter, hfree, slot_set]
      simp only [Option.some.injEq]
      rfl
  | stop other =>
    obtain ⟨journal, hstop⟩ := table.stop_eq other
    rw [perform, hstop, slotAfter, slot_set]
    rfl
  | stopAll => exact Vector.getElem_replicate ..
  | isActive _ | activeCount => rfl
  | tick =>
    have hslot := slot_ticks fits 1 id
    rwa [ticks_one] at hslot
  | advance now =>
    obtain ⟨journal, hadvance⟩ := table.advance_eq now
    rw [perform, hadvance]
    exact slot_ticks fits _ id

theorem Fits.perform (fits : table.Fits) (operation : TimerOperation κ) :
    (table.perform operation).2.Fits := by
  intro id timer hslot
  rw [slot_perform fits, Option.mem_def] at hslot
  cases operation with
  | start interval callback =>
    rw [slotAfter] at hslot
    split at hslot
    · obtain rfl := Option.some.inj hslot
      exact Timer.period_pos _
    · exact fits id timer hslot
  | stop other =>
    rw [slotAfter] at hslot
    split at hslot
    · cases hslot
    · exact fits id timer hslot
  | stopAll => cases hslot
  | isActive _ | activeCount => exact fits id timer hslot
  | tick | advance now =>
    obtain ⟨timer, -, rfl⟩ := Option.map_eq_some_iff.mp hslot
    exact timer.fits_after _

/-- An operation that does not end a timer only makes it older, by its ticks. -/
theorem slot_perform_running (fits : table.Fits) (running : table.slot id = some timer)
    {operation : TimerOperation κ} (kept : ¬operation.Ends id) :
    (table.perform operation).2.slot id = some (timer.after (table.span operation)) := by
  have hsame : some timer = some (timer.after 0) :=
    congrArg some (fits id timer running).after_zero.symm
  rw [slot_perform fits]
  cases operation with
  | start interval callback =>
    -- the slot is taken, so it is not the free one
    have hfree : table.freeSlot? ≠ some id := by
      intro h
      rw [free_of_freeSlot? h] at running
      cases running
    rw [slotAfter, if_neg hfree, running]
    exact hsame
  | stop other =>
    have hother : other ≠ id := kept
    rw [slotAfter, if_neg hother, running]
    exact hsame
  | stopAll => exact absurd trivial kept
  | isActive _ | activeCount => rw [slotAfter, running, hsame]; rfl
  | tick | advance now => rw [slotAfter, running, span, Option.map_some]

/-! ## Runs -/

theorem fits_empty : (empty : TimerTable κ).Fits := by
  intro id timer hslot
  rw [slot_empty] at hslot
  cases hslot

theorem Fits.performAll (fits : table.Fits) (operations : List (TimerOperation κ)) :
    (table.performAll operations).2.Fits := by
  induction operations generalizing table with
  | nil => exact fits
  | cons operation rest ih => exact ih (fits.perform operation)

/-- Every answer tells the calls of the ticks of its operation. -/
theorem callbacks_performAll (table : TimerTable κ) (operations : List (TimerOperation κ)) :
    (table.performAll operations).1.map TimerAnswer.callbacks =
      (table.runCalls operations).map fun ticks => ticks.flatten.map Prod.snd := by
  induction operations generalizing table with
  | nil => rfl
  | cons operation rest ih =>
    have hrest := ih (table.perform operation).2
    rw [runCalls, List.map_cons, ← callbacks_perform, ← hrest]
    rfl

theorem count_of_mem_performAll {operations : List (TimerOperation κ)} {fired : Fired κ}
    (h : .fired fired ∈ (table.performAll operations).1) :
    fired.count = fired.callbacks.length := by
  induction operations generalizing table with
  | nil => cases h
  | cons operation rest ih =>
    rcases List.mem_cons.mp h with h | h
    · exact count_perform h.symm
    · exact ih h

theorem runCalls_append (table : TimerTable κ) (first second : List (TimerOperation κ)) :
    table.runCalls (first ++ second) =
      table.runCalls first ++ (table.performAll first).2.runCalls second := by
  induction first generalizing table with
  | nil => rfl
  | cons operation rest ih =>
    rw [List.cons_append, runCalls, runCalls, ih, List.cons_append]
    rfl

/-- No tick of a run calls a slot twice or out of order. -/
theorem pairwise_of_mem_runCalls {operations : List (TimerOperation κ)}
    {calls : List (TimerId × κ)} (h : calls ∈ (table.runCalls operations).flatten) :
    (calls.map Prod.fst).Pairwise (· < ·) := by
  induction operations generalizing table with
  | nil => cases h
  | cons operation rest ih =>
    rw [runCalls, List.flatten_cons, List.mem_append] at h
    rcases h with h | h
    · obtain ⟨n, -, rfl⟩ := List.mem_map.mp h
      exact pairwise_calls _
    · exact ih h

/-- A run keeps the schedule of a timer that it does not end. -/
theorem keptBy_runCalls (fits : table.Fits) (running : table.slot id = some timer)
    {operations : List (TimerOperation κ)} (kept : ∀ operation ∈ operations, ¬operation.Ends id) :
    timer.KeptBy id (table.runCalls operations).flatten := by
  induction operations generalizing table timer with
  | nil => exact fun n calls hcalls => absurd hcalls (by simp [runCalls])
  | cons operation rest ih =>
    have hslot := slot_perform_running fits running (kept operation List.mem_cons_self)
    have hrest := ih (fits.perform operation) hslot
      fun operation h => kept operation (List.mem_cons_of_mem _ h)
    have hfirst := keptBy_callsOf fits running (table.span operation)
    rw [runCalls, List.flatten_cons]
    refine hfirst.append ?_
    rwa [length_callsOf]

end TimerTable

open TimerTable in
/-- **A timer fires exactly on its period.** In any run from an empty table, take the ticks in it,
those of catching up included, each with the slots and the callbacks that it calls; they are what
the operations answer, with their number. A tick calls no slot twice, and calls them in ascending
order. A timer that was started and not stopped since is called by the ticks whose number since its
start is a multiple of its interval, or of one if that is zero, whatever is started, stopped or
called in other slots; so `n` ticks call it `n` divided by the interval times. Every counter stays
below the interval and can be raised without wrapping around. -/
theorem fires_on_period (operations : List (TimerOperation κ)) :
    let reached := (TimerTable.empty.performAll operations).2
    let ticks := (TimerTable.empty.runCalls operations).flatten
    (TimerTable.empty.performAll operations).1.map TimerAnswer.callbacks =
      (TimerTable.empty.runCalls operations).map (fun ticks => ticks.flatten.map Prod.snd) ∧
    (∀ fired, .fired fired ∈ (TimerTable.empty.performAll operations).1 →
      fired.count = fired.callbacks.length) ∧
    (∀ calls ∈ ticks, (calls.map Prod.fst).Pairwise (· < ·)) ∧
    (∀ before interval callback between id,
      operations = before ++ .start interval callback :: between →
      ((TimerTable.empty.performAll before).2.start interval callback).1 = .ok id →
      (∀ operation ∈ between, ¬operation.Ends id) →
      ∃ since, ticks = (TimerTable.empty.runCalls before).flatten ++ since ∧
        (∀ n calls, since[n]? = some calls → ∀ called,
          (id, called) ∈ calls ↔ called = callback ∧ max interval.toNat 1 ∣ n + 1) ∧
        ∀ n ≤ since.length,
          ((since.take n).flatten.map Prod.fst).count id = n / max interval.toNat 1) ∧
    ∀ id : TimerId, ∀ timer ∈ reached.slot id,
      timer.counter.toNat < max timer.interval.toNat 1 ∧
      (timer.counter + 1).toNat = timer.counter.toNat + 1 := by
  intro reached ticks
  refine ⟨callbacks_performAll .empty operations, fun fired => count_of_mem_performAll,
    fun calls => pairwise_of_mem_runCalls, ?_, ?_⟩
  · rintro before interval callback between id rfl hstart kept
    let timer : Timer κ := { interval, callback, counter := 0 }
    let found := (TimerTable.empty.performAll before).2
    let started := (found.perform (.start interval callback)).2
    have hfound : found.Fits := fits_empty.performAll before
    have hslot : started.slot id = some timer := by
      rw [slot_perform hfound, slotAfter, if_pos (freeSlot?_of_start hstart)]
    have hkept := keptBy_runCalls (hfound.perform _) hslot kept
    refine ⟨(started.runCalls between).flatten, ?_, fun n calls hcalls called => ?_, fun n hn => ?_⟩
    · show (TimerTable.empty.runCalls _).flatten = _
      rw [runCalls_append, List.flatten_append]
      rfl
    · have hcount : timer.counter.toNat + n + 1 = n + 1 := congrArg (· + 1) (Nat.zero_add n)
      rw [(hkept n calls hcalls).2, Timer.due_after, hcount]
      rfl
    · have hcount : timer.counter.toNat + n = n := Nat.zero_add n
      rw [hkept.count_take (Timer.period_pos _) hn, Timer.firings, hcount]
      rfl
  · intro id timer hslot
    have htimer := fits_empty.performAll operations id timer hslot
    exact ⟨htimer, htimer.toNat_succ⟩

open TimerTable in
/-- A slot that is used again: its second timer, with an interval of three, is called by ticks three
and six of the seven since its start, while others are started, called and stopped. -/
theorem fires_on_period_used_again :
    let first : TimerId := ⟨0, by decide⟩
    let second : TimerId := ⟨1, by decide⟩
    let before : List (TimerOperation Nat) := [.start 2 10, .start 4 11, .tick, .stop first, .tick]
    let between : List (TimerOperation Nat) :=
      [.tick, .start 0 13, .tick, .stop second, .tick, .advance 5, .start 4294967295 14,
        .advance 9]
    let ticks := (TimerTable.empty.runCalls (before ++ .start 3 12 :: between)).flatten
    ((TimerTable.empty.performAll before).2.start 3 12).1 = .ok first ∧
    ∃ since, ticks = (TimerTable.empty.runCalls before).flatten ++ since ∧ since.length = 7 ∧
      (∀ n calls, since[n]? = some calls → ∀ called,
        (first, called) ∈ calls ↔ called = 12 ∧ 3 ∣ n + 1) ∧
      ((since.take 7).flatten.map Prod.fst).count first = 2 := by
  intro first second before between ticks
  have hfree : (TimerTable.empty.performAll before).2.freeSlot? = some first := by decide +kernel
  have hstart : ((TimerTable.empty.performAll before).2.start 3 12).1 = .ok first := by
    obtain ⟨journal, hstart⟩ := start_of_free hfree 3 12
    rw [hstart]
  have kept : ∀ operation ∈ between, ¬operation.Ends first := by
    simp [between, TimerOperation.Ends, first, second]
  obtain ⟨-, -, -, hschedule, -⟩ := fires_on_period (before ++ .start 3 12 :: between)
  obtain ⟨since, hticks, hcalls, hcount⟩ := hschedule before 3 12 between first rfl hstart kept
  have hall : ticks.length = 9 := by decide +kernel
  have hbefore : (TimerTable.empty.runCalls before).flatten.length = 2 := by decide +kernel
  have hsince : since.length = 7 := by
    have hlength : ticks.length = _ := congrArg List.length hticks
    rw [List.length_append, hall, hbefore] at hlength
    omega
  exact ⟨hstart, since, hticks, hsince, hcalls, hcount 7 (Nat.le_of_eq hsince.symm)⟩

end Firmware
