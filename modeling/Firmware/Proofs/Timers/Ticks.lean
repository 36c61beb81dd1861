/-
  Firmware: ticks in a row. A timer that counts below its period still does so after any number of
  ticks, and its counter is then the remainder of all that it has counted; it fires at those ticks
  that complete a multiple of the period. A tick treats every slot alone, so the ticks of a table
  are those of its timers side by side, and a run of ticks can be split anywhere.
-/
import Firmware.Timers
import Mathlib.Algebra.BigOperators.Group.List.Basic
import Mathlib.Algebra.GroupWithZero.Nat
import Mathlib.Data.List.Count
import Mathlib.Data.List.FinRange

namespace Firmware

namespace Timer

variable {κ : Type} {timer : Timer κ}

/-- How many ticks lie between two firings. An interval of zero counts as one. -/
def period (timer : Timer κ) : Nat := max timer.interval.toNat 1

/-- The counter is below the period. -/
def Fits (timer : Timer κ) : Prop := timer.counter.toNat < timer.period

/-- The timer after `n` ticks, as far as the remainder of its count tells. -/
def after (timer : Timer κ) (n : Nat) : Timer κ :=
  { timer with counter := .ofNat ((timer.counter.toNat + n) % timer.period) }

/-- How often `n` ticks complete the period. -/
def firings (timer : Timer κ) (n : Nat) : Nat := (timer.counter.toNat + n) / timer.period

theorem period_pos (timer : Timer κ) : 0 < timer.period := by
  unfold period
  omega

theorem period_lt (timer : Timer κ) : timer.period < UInt32.size := by
  have := timer.interval.toNat_lt
  unfold period UInt32.size
  omega

theorem toNat_counter_after (timer : Timer κ) (n : Nat) :
    (timer.after n).counter.toNat = (timer.counter.toNat + n) % timer.period := by
  have hmod := Nat.mod_lt (timer.counter.toNat + n) timer.period_pos
  exact UInt32.toNat_ofNat_of_lt' (Nat.lt_trans hmod timer.period_lt)

theorem fits_after (timer : Timer κ) (n : Nat) : (timer.after n).Fits := by
  unfold Fits
  rw [toNat_counter_after]
  exact Nat.mod_lt _ timer.period_pos

/-- The counter can be raised by one: it does not wrap around, whatever the interval is. -/
theorem Fits.toNat_succ (fits : timer.Fits) :
    (timer.counter + 1).toNat = timer.counter.toNat + 1 := by
  have hperiod := timer.period_lt
  have hcounter : timer.counter.toNat < timer.period := fits
  rw [UInt32.toNat_add, UInt32.toNat_one]
  unfold UInt32.size at hperiod
  omega

theorem Fits.due_iff (fits : timer.Fits) :
    timer.due = true ↔ timer.counter.toNat + 1 = timer.period := by
  have hcounter : timer.counter.toNat < timer.period := fits
  rw [due, decide_eq_true_iff, UInt32.le_iff_toNat_le, fits.toNat_succ]
  unfold period at hcounter ⊢
  omega

theorem Fits.after_zero (fits : timer.Fits) : timer.after 0 = timer := by
  have hcounter : timer.counter.toNat % timer.period = timer.counter.toNat := Nat.mod_eq_of_lt fits
  rw [after, Nat.add_zero, hcounter, UInt32.ofNat_toNat]

theorem Fits.step_eq (fits : timer.Fits) : timer.step = timer.after 1 := by
  have hcounter : timer.counter.toNat < timer.period := fits
  unfold step after
  congr 1
  by_cases hdue : timer.due
  · rw [if_pos hdue, fits.due_iff.mp hdue, Nat.mod_self]
    rfl
  · have hne : timer.counter.toNat + 1 ≠ timer.period := fun h => hdue (fits.due_iff.mpr h)
    rw [if_neg hdue, Nat.mod_eq_of_lt (by omega), ← fits.toNat_succ, UInt32.ofNat_toNat]

theorem after_after (timer : Timer κ) (m n : Nat) :
    (timer.after m).after n = timer.after (m + n) := by
  have hperiod : (timer.after m).period = timer.period := rfl
  rw [after, toNat_counter_after, hperiod, Nat.mod_add_mod, Nat.add_assoc]
  rfl

/-- Tick number `n + 1` from now on fires a timer if the period divides the count by then. -/
theorem due_after (timer : Timer κ) (n : Nat) :
    (timer.after n).due = true ↔ timer.period ∣ timer.counter.toNat + n + 1 := by
  have hpos := timer.period_pos
  have hmod := Nat.mod_lt (timer.counter.toNat + n) hpos
  have hperiod : (timer.after n).period = timer.period := rfl
  rw [(timer.fits_after n).due_iff, toNat_counter_after, hperiod, Nat.dvd_iff_mod_eq_zero,
    ← Nat.mod_add_mod (timer.counter.toNat + n)]
  constructor
  · intro h
    rw [h, Nat.mod_self]
  · intro h
    have hle := Nat.le_of_dvd (Nat.succ_pos _) (Nat.dvd_of_mod_eq_zero h)
    omega

theorem Fits.firings_zero (fits : timer.Fits) : timer.firings 0 = 0 := Nat.div_eq_of_lt fits

theorem firings_succ (timer : Timer κ) (n : Nat) :
    timer.firings (n + 1) = timer.firings n + if (timer.after n).due then 1 else 0 := by
  simp only [firings, due_after, ← Nat.add_assoc]
  exact Nat.succ_div

end Timer

namespace Fired

variable {κ : Type}

@[simp] theorem count_append (first second : Fired κ) :
    (first ++ second).count = first.count + second.count := rfl

@[simp] theorem callbacks_append (first second : Fired κ) :
    (first ++ second).callbacks = first.callbacks ++ second.callbacks := rfl

theorem empty_append (fired : Fired κ) : {} ++ fired = fired :=
  Fired.ext (Nat.zero_add _) (List.nil_append _)

theorem append_empty (fired : Fired κ) : fired ++ {} = fired :=
  Fired.ext (Nat.add_zero _) (List.append_nil _)

theorem append_assoc (first second third : Fired κ) :
    first ++ second ++ third = first ++ (second ++ third) :=
  Fired.ext (Nat.add_assoc ..) (List.append_assoc ..)

end Fired

namespace TimerTable

variable {κ : Type} {table : TimerTable κ}

/-- The timer that runs in a slot. -/
def slot (table : TimerTable κ) (id : TimerId) : Option (Timer κ) := table.slots.get id

theorem slot_empty (id : TimerId) : (empty : TimerTable κ).slot id = none :=
  Vector.getElem_replicate id.isLt

theorem toList_slots (table : TimerTable κ) :
    table.slots.toList = (List.finRange timerSlots).map fun id => table.slot id := by
  rw [← List.ofFn_eq_map]
  refine List.ext_getElem (by simp) fun i _ _ => ?_
  rw [Vector.getElem_toList, List.getElem_ofFn]
  rfl

theorem slot_set (slots : Vector (Option (Timer κ)) timerSlots) (changed id : TimerId)
    (slot? : Option (Timer κ)) (reading : Option UInt64) (journal : Journal) :
    slot ⟨slots.set changed slot? changed.isLt, reading, journal⟩ id =
      if changed = id then slot? else slots.get id := by
  simp only [Fin.ext_iff]
  exact Vector.getElem_set changed.isLt id.isLt

/-- Every running timer counts below its period. -/
def Fits (table : TimerTable κ) : Prop := ∀ id : TimerId, ∀ timer ∈ table.slot id, timer.Fits

/-- The calls that the next tick makes, each with its slot, in the order of the slots. -/
def calls (table : TimerTable κ) : List (TimerId × κ) :=
  (List.finRange timerSlots).filterMap fun id =>
    (table.slot id).bind fun timer => if timer.due then some (id, timer.callback) else none

/-- The calls of the next `n` ticks, tick by tick. -/
def callsOf (table : TimerTable κ) (n : Nat) : List (List (TimerId × κ)) :=
  (List.range n).map fun k => (table.ticks k).2.calls

/-! ## One tick -/

theorem mem_calls {id : TimerId} {callback : κ} : (id, callback) ∈ table.calls ↔
    ∃ timer ∈ table.slot id, timer.due = true ∧ timer.callback = callback := by
  simp only [calls, List.mem_filterMap, List.mem_finRange, true_and, Option.bind_eq_some_iff,
    Option.mem_def, Option.ite_none_right_eq_some, Option.some.injEq, Prod.mk.injEq]
  constructor
  · rintro ⟨_, timer, hslot, hdue, rfl, hcallback⟩
    exact ⟨timer, hslot, hdue, hcallback⟩
  · rintro ⟨timer, hslot, hdue, hcallback⟩
    exact ⟨id, timer, hslot, hdue, rfl, hcallback⟩

theorem pairwise_calls (table : TimerTable κ) : (table.calls.map Prod.fst).Pairwise (· < ·) := by
  rw [calls, List.map_filterMap, List.pairwise_filterMap]
  refine (List.pairwise_lt_finRange timerSlots).imp ?_
  intro a b hlt
  simp only [Option.map_eq_some_iff, Option.bind_eq_some_iff, Option.ite_none_right_eq_some,
    Option.some.injEq]
  rintro _ ⟨_, ⟨_, _, _, rfl⟩, rfl⟩ _ ⟨_, ⟨_, _, _, rfl⟩, rfl⟩
  exact hlt

theorem callbacks_tick (table : TimerTable κ) :
    table.tick.1.callbacks = table.calls.map Prod.snd := by
  show table.dueCallbacks = _
  rw [dueCallbacks, toList_slots, List.filterMap_map, calls, List.map_filterMap]
  congr 1
  funext id
  rw [Function.comp_apply, Option.map_bind]
  congr 1
  funext timer
  rw [Function.comp_apply]
  split <;> rfl

theorem count_tick (table : TimerTable κ) : table.tick.1.count = table.tick.1.callbacks.length := by
  show table.dueCount = table.dueCallbacks.length
  rw [dueCount, dueCallbacks, List.length_filterMap_eq_countP]
  congr 1
  funext slot
  cases slot with
  | none => rfl
  | some timer =>
    rw [Option.any_some, Option.bind_some]
    cases timer.due <;> rfl

theorem slot_tick (table : TimerTable κ) (id : TimerId) :
    table.tick.2.slot id = (table.slot id).map Timer.step :=
  Vector.getElem_map ..

/-! ## Ticks in a row -/

theorem ticksFrom_succ (count : Nat) (called : List κ) (table : TimerTable κ) (n : Nat) :
    ticksFrom count called table (n + 1) =
      ticksFrom (count + table.tick.1.count) (table.tick.1.callbacks.reverse ++ called)
        table.tick.2 n :=
  rfl

theorem ticksFrom_eq (count : Nat) (called : List κ) (table : TimerTable κ) (n : Nat) :
    ticksFrom count called table n =
      ({ count, callbacks := called.reverse } ++ (table.ticks n).1, (table.ticks n).2) := by
  induction n generalizing count called table with
  | zero => exact congrArg (·, table) (Fired.append_empty _).symm
  | succ n ih =>
    rw [ticks, ticksFrom_succ, ticksFrom_succ, ih, ih]
    simp [Fired.ext_iff, Nat.add_assoc]

theorem ticks_zero (table : TimerTable κ) : table.ticks 0 = ({}, table) := rfl

theorem ticks_succ (table : TimerTable κ) (n : Nat) :
    table.ticks (n + 1) = (table.tick.1 ++ (table.tick.2.ticks n).1, (table.tick.2.ticks n).2) := by
  rw [ticks, ticksFrom_succ, ticksFrom_eq]
  simp

/-- Ticks in a row can be split anywhere. -/
theorem ticks_add (table : TimerTable κ) (m n : Nat) : table.ticks (m + n) =
    ((table.ticks m).1 ++ ((table.ticks m).2.ticks n).1, ((table.ticks m).2.ticks n).2) := by
  induction m generalizing table with
  | zero => rw [Nat.zero_add, ticks_zero, Fired.empty_append]
  | succ m ih => rw [Nat.add_right_comm, ticks_succ, ih, ticks_succ table m, Fired.append_assoc]

theorem ticks_one (table : TimerTable κ) : table.ticks 1 = table.tick := by
  rw [ticks_succ, ticks_zero, Fired.append_empty]

/-- The source's reading plays no part in ticks. -/
theorem ticks_reading (table : TimerTable κ) (reading : Option UInt64) (n : Nat) :
    ({ table with lastReading := reading }.ticks n) =
      ((table.ticks n).1, { (table.ticks n).2 with lastReading := reading }) := by
  induction n generalizing table with
  | zero => rfl
  | succ n ih =>
    rw [ticks_succ, ticks_succ]
    exact congrArg (fun t : Fired κ × TimerTable κ => (table.tick.1 ++ t.1, t.2)) (ih table.tick.2)

theorem slot_ticks (fits : table.Fits) (n : Nat) (id : TimerId) :
    (table.ticks n).2.slot id = (table.slot id).map (Timer.after · n) := by
  induction n with
  | zero =>
    rw [ticks_zero]
    cases hslot : table.slot id with
    | none => rfl
    | some timer => exact congrArg some (fits id timer hslot).after_zero.symm
  | succ n ih =>
    rw [ticks_add, ticks_one, slot_tick, ih, Option.map_map]
    congr 1
    funext timer
    rw [Function.comp_apply, (timer.fits_after n).step_eq, Timer.after_after]

theorem callsOf_succ (table : TimerTable κ) (n : Nat) :
    table.callsOf (n + 1) = table.callsOf n ++ [(table.ticks n).2.calls] := by
  rw [callsOf, List.range_succ, List.map_append]
  rfl

theorem length_callsOf (table : TimerTable κ) (n : Nat) : (table.callsOf n).length = n := by
  rw [callsOf, List.length_map, List.length_range]

/-- Ticks in a row call what each of them calls, in order. -/
theorem callbacks_ticks (table : TimerTable κ) (n : Nat) :
    (table.ticks n).1.callbacks = (table.callsOf n).flatten.map Prod.snd := by
  induction n with
  | zero => rfl
  | succ n ih =>
    rw [ticks_add, ticks_one, Fired.callbacks_append, callbacks_tick, ih, callsOf_succ,
      List.flatten_append, List.map_append]
    simp

/-- They count their calls. -/
theorem count_ticks (table : TimerTable κ) (n : Nat) :
    (table.ticks n).1.count = (table.ticks n).1.callbacks.length := by
  induction n with
  | zero => rfl
  | succ n ih =>
    rw [ticks_add, ticks_one, Fired.count_append, Fired.callbacks_append, List.length_append, ih,
      count_tick]

theorem getElem?_callsOf {n k : Nat} {calls : List (TimerId × κ)}
    (h : (table.callsOf n)[k]? = some calls) : calls = (table.ticks k).2.calls := by
  rw [callsOf, List.getElem?_map, Option.map_eq_some_iff] at h
  obtain ⟨i, hi, rfl⟩ := h
  obtain ⟨hlt, hik⟩ := List.getElem?_eq_some_iff.mp hi
  rw [List.getElem_range] at hik
  rw [hik]

end TimerTable

/-! ## Schedules -/

variable {κ : Type} {timer : Timer κ} {id : TimerId}

/-- In ticks in a row, whose calls are given tick by tick, the timer in a slot is called when it is
due. No tick calls a slot twice or out of order. -/
def Timer.KeptBy (timer : Timer κ) (id : TimerId) (ticks : List (List (TimerId × κ))) : Prop :=
  ∀ n calls, ticks[n]? = some calls →
    (calls.map Prod.fst).Pairwise (· < ·) ∧
    ∀ callback, (id, callback) ∈ calls ↔ callback = timer.callback ∧ (timer.after n).due = true

namespace Timer.KeptBy

variable {ticks ticks' : List (List (TimerId × κ))}

theorem append (first : timer.KeptBy id ticks)
    (second : (timer.after ticks.length).KeptBy id ticks') : timer.KeptBy id (ticks ++ ticks') := by
  intro n calls hcalls
  by_cases h : n < ticks.length
  · rw [List.getElem?_append_left h] at hcalls
    exact first n calls hcalls
  · rw [List.getElem?_append_right (Nat.not_lt.mp h)] at hcalls
    have hsecond := second _ calls hcalls
    rwa [Timer.after_after, Nat.add_sub_cancel' (Nat.not_lt.mp h)] at hsecond

/-- The timer is called as often as its period goes into the count. -/
theorem count_take (kept : timer.KeptBy id ticks) (fits : timer.Fits) {n : Nat}
    (h : n ≤ ticks.length) :
    ((ticks.take n).flatten.map Prod.fst).count id = timer.firings n := by
  induction n with
  | zero => exact fits.firings_zero.symm
  | succ n ih =>
    have hcalls : ticks[n]? = some ticks[n] := List.getElem?_eq_getElem h
    obtain ⟨hpairwise, hmem⟩ := kept n ticks[n] hcalls
    have hnodup : (ticks[n].map Prod.fst).Nodup := hpairwise.imp Fin.ne_of_lt
    have hdue : id ∈ ticks[n].map Prod.fst ↔ (timer.after n).due = true := by
      simp only [List.mem_map, Prod.exists, exists_and_right, exists_eq_right, hmem, exists_eq,
        true_and]
    rw [List.take_succ_eq_append_getElem h, List.flatten_append, List.map_append,
      List.count_append, ih (Nat.le_of_lt h), List.flatten_singleton, hnodup.count,
      Timer.firings_succ]
    simp only [hdue]

end Timer.KeptBy

/-- The ticks of a table keep the schedule of each timer in it. -/
theorem TimerTable.keptBy_callsOf {table : TimerTable κ} (fits : table.Fits)
    (running : table.slot id = some timer) (n : Nat) : timer.KeptBy id (table.callsOf n) := by
  intro k calls hcalls
  have hslot := slot_ticks fits k id
  rw [running, Option.map_some] at hslot
  rw [getElem?_callsOf hcalls]
  refine ⟨pairwise_calls _, fun callback => ?_⟩
  rw [mem_calls, hslot]
  constructor
  · rintro ⟨_, ⟨rfl⟩, hdue, rfl⟩
    exact ⟨rfl, hdue⟩
  · rintro ⟨rfl, hdue⟩
    exact ⟨_, rfl, hdue, rfl⟩

end Firmware
