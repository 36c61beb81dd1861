/-
  Firmware: catching up with a source. Between two readings a table runs the ticks by which the
  source went on, neither more nor fewer, so that over a run the ticks add up to what lies between
  the first reading and the last. How often each timer fires meanwhile, and what it has counted
  then, is a quotient and a remainder, whether the catching up is done in one step or in several.
  The main result is `advance_loses_no_tick`.
-/
import Firmware.Proofs.Timers.Schedule
import Mathlib.Algebra.BigOperators.Group.Finset.Basic
import Mathlib.Data.Fintype.Basic

namespace Firmware

variable {κ : Type}

namespace TimerOperation

/-- The reading that an operation catches up with. -/
def reading? : TimerOperation κ → Option UInt64
  | .advance now => some now
  | _ => none

/-- Whether an operation is one tick. -/
def isTick : TimerOperation κ → Bool
  | .tick => true
  | _ => false

end TimerOperation

/-- By how much a source went on from each of its readings to the next. Going back counts as
nothing. -/
def gaps : List UInt64 → List Nat
  | earlier :: later :: rest => (later.toNat - earlier.toNat) :: gaps (later :: rest)
  | _ => []

/-- A source that never goes back goes on by what lies between its first reading and its last. -/
theorem sum_gaps {first last : UInt64} {rest : List UInt64}
    (ascending : (first :: rest).Pairwise (· ≤ ·)) (hlast : (first :: rest).getLast? = some last) :
    (gaps (first :: rest)).sum = last.toNat - first.toNat := by
  induction rest generalizing first with
  | nil =>
    obtain rfl : first = last := Option.some.inj hlast
    rw [Nat.sub_self]
    rfl
  | cons second rest ih =>
    rw [List.getLast?_cons_cons] at hlast
    rw [List.pairwise_cons] at ascending
    have hfirst : first.toNat ≤ second.toNat := ascending.1 second List.mem_cons_self
    have hsecond : second.toNat ≤ last.toNat := by
      rcases List.mem_cons.mp (List.mem_of_getLast? hlast) with rfl | hmem
      · exact Nat.le_refl _
      · exact (List.pairwise_cons.mp ascending.2).1 last hmem
    rw [gaps, List.sum_cons, ih ascending.2 hlast]
    omega

namespace TimerTable

variable {table : TimerTable κ} {id : TimerId}

/-! ## Readings -/

theorem lastReading_perform (table : TimerTable κ) (operation : TimerOperation κ) :
    (table.perform operation).2.lastReading = operation.reading?.or table.lastReading := by
  cases operation with
  | start interval callback =>
    cases hfree : table.freeSlot? with
    | none => rw [perform, start_of_full hfree]; rfl
    | some free =>
      obtain ⟨journal, hstart⟩ := start_of_free hfree interval callback
      rw [perform, hstart]
      rfl
  | stop id =>
    obtain ⟨journal, hstop⟩ := table.stop_eq id
    rw [perform, hstop]
    rfl
  | stopAll | isActive id | activeCount | tick => rfl
  | advance now =>
    obtain ⟨journal, hadvance⟩ := table.advance_eq now
    rw [perform, hadvance]
    rfl

theorem lastReading_performAll (table : TimerTable κ) (operations : List (TimerOperation κ)) :
    (table.performAll operations).2.lastReading =
      (operations.filterMap TimerOperation.reading?).getLast?.or table.lastReading := by
  induction operations generalizing table with
  | nil => rfl
  | cons operation rest ih =>
    refine (ih (table.perform operation).2).trans ?_
    rw [lastReading_perform, List.filterMap_cons, ← Option.or_assoc]
    cases operation.reading? with
    | none => rw [Option.or_none]
    | some now => rw [List.getLast?_cons, Option.or_some]

/-- The ticks of a run are those asked for and those that the source went on by. -/
theorem length_runCalls (table : TimerTable κ) (operations : List (TimerOperation κ)) :
    (table.runCalls operations).flatten.length = operations.countP TimerOperation.isTick +
      (gaps (table.lastReading.toList ++ operations.filterMap TimerOperation.reading?)).sum := by
  induction operations generalizing table with
  | nil => cases table.lastReading <;> rfl
  | cons operation rest ih =>
    let asked := rest.countP TimerOperation.isTick
    let readings := rest.filterMap TimerOperation.reading?
    rw [runCalls, List.flatten_cons, List.length_append, length_callsOf, ih, lastReading_perform,
      List.filterMap_cons, List.countP_cons]
    cases operation with
    | start interval callback | stop id | stopAll | isActive id | activeCount =>
      exact Nat.zero_add _
    | tick =>
      show 1 + (asked + (gaps (table.lastReading.toList ++ readings)).sum) =
        asked + 1 + (gaps (table.lastReading.toList ++ readings)).sum
      omega
    | advance now =>
      rw [span, elapsed]
      cases table.lastReading with
      | none => exact Nat.zero_add _
      | some last =>
        show now.toNat - last.toNat + (asked + (gaps (now :: readings)).sum) =
          asked + (now.toNat - last.toNat + (gaps (now :: readings)).sum)
        omega

/-! ## Ticks gone by -/

/-- As many ticks as operations answer and leave the same. -/
theorem performAll_ticks (table : TimerTable κ) (n : Nat) :
    (table.performAll (List.replicate n .tick)).1.flatMap TimerAnswer.callbacks =
      (table.ticks n).1.callbacks ∧
    (table.performAll (List.replicate n .tick)).2 = (table.ticks n).2 := by
  induction n generalizing table with
  | zero => exact ⟨rfl, rfl⟩
  | succ n ih =>
    obtain ⟨hcallbacks, htable⟩ := ih table.tick.2
    rw [List.replicate_succ, ticks_succ, Fired.callbacks_append, ← hcallbacks, ← htable]
    exact ⟨rfl, rfl⟩

/-- How often `n` ticks call each slot. -/
theorem count_callsOf (fits : table.Fits) (n : Nat) (id : TimerId) :
    ((table.callsOf n).flatten.map Prod.fst).count id =
      (table.slot id).elim 0 (Timer.firings · n) := by
  cases hslot : table.slot id with
  | some timer =>
    have hkept := keptBy_callsOf fits hslot n
    have hcount := hkept.count_take (fits id timer hslot) (Nat.le_refl _)
    rwa [List.take_length, length_callsOf] at hcount
  | none =>
    -- an idle slot stays idle, and nothing is called in it
    refine List.count_eq_zero_of_not_mem fun hmem => ?_
    obtain ⟨⟨_, callback⟩, hcall, rfl⟩ := List.mem_map.mp hmem
    obtain ⟨calls, hcalls, hcall⟩ := List.mem_flatten.mp hcall
    obtain ⟨k, -, rfl⟩ := List.mem_map.mp hcalls
    obtain ⟨timer, hfound, -⟩ := mem_calls.mp hcall
    rw [slot_ticks fits, hslot] at hfound
    cases hfound

/-- All that ticks fire is what fires in the slots, added up. -/
theorem count_ticks_eq_sum (fits : table.Fits) (n : Nat) :
    (table.ticks n).1.count = ∑ id : TimerId, (table.slot id).elim 0 (Timer.firings · n) := by
  let called := (table.callsOf n).flatten.map Prod.fst
  have hlength : (table.ticks n).1.count = called.length := by
    rw [count_ticks, callbacks_ticks, List.length_map, List.length_map]
  have hsum : ∑ id : TimerId, (called : Multiset TimerId).count id = called.length :=
    Multiset.sum_count_eq_card fun id _ => Finset.mem_univ id
  rw [hlength, ← hsum]
  refine Finset.sum_congr rfl fun id _ => ?_
  rw [Multiset.coe_count, count_callsOf fits]

/-- Catching up can be done in two steps. -/
theorem advance_advance {last between now : UInt64} (hlast : table.lastReading = some last)
    (h₁ : last ≤ between) (h₂ : between ≤ now) :
    ((table.advance between).1 ++ ((table.advance between).2.advance now).1,
      ((table.advance between).2.advance now).2) = table.advance now := by
  have hsplit : now.toNat - last.toNat =
      between.toNat - last.toNat + (now.toNat - between.toNat) := by
    rw [UInt64.le_iff_toNat_le] at h₁ h₂
    omega
  let middle := (table.ticks (between.toNat - last.toNat)).2
  have hsecond : { middle with lastReading := some between }.advance now =
      ((middle.ticks (now.toNat - between.toNat)).1,
        { (middle.ticks (now.toNat - between.toNat)).2 with lastReading := some now }) := by
    rw [advance_of_some rfl now, middle.ticks_reading]
  rw [advance_of_some hlast between, advance_of_some hlast now, hsplit, ticks_add, hsecond]

end TimerTable

open TimerTable in
/-- **Catching up loses no tick and runs none twice.** In any run from an empty table the ticks are
those asked for and those by which the source went on from each reading to the next, where going
back counts as nothing; for a source that never goes back they add up to what lies between its first
reading and its last. In what a run has come to, the first reading of all fires nothing and leaves
every timer alone. Any other reading calls what as many ticks as lie between it and the one before
would call, and leaves the timers as they would. Each timer is then called as often as its interval,
or one if that is zero, goes into its count, which leaves the remainder; the number that is answered
is that of all calls, the sum over the slots. With a reading in between, everything is the same in
two steps as in one. -/
theorem advance_loses_no_tick (operations : List (TimerOperation κ)) :
    let reached := (TimerTable.empty.performAll operations).2
    let readings := operations.filterMap TimerOperation.reading?
    (TimerTable.empty.runCalls operations).flatten.length =
      operations.countP TimerOperation.isTick + (gaps readings).sum ∧
    (∀ first last, readings.head? = some first → readings.getLast? = some last →
      readings.Pairwise (· ≤ ·) → (gaps readings).sum = last.toNat - first.toNat) ∧
    ∀ now,
      let caught := reached.advance now
      caught.2.lastReading = some now ∧
      (readings = [] → caught.1 = {} ∧ caught.2.slots = reached.slots) ∧
      ∀ last, readings.getLast? = some last →
        let ticks := now.toNat - last.toNat
        let ticked := reached.performAll (List.replicate ticks .tick)
        caught.1.callbacks = ticked.1.flatMap TimerAnswer.callbacks ∧
        caught.2 = { ticked.2 with lastReading := some now } ∧
        caught.1.callbacks = (reached.callsOf ticks).flatten.map Prod.snd ∧
        (∀ id : TimerId, ∀ timer ∈ reached.slot id,
          let count := timer.counter.toNat + ticks
          let period := max timer.interval.toNat 1
          ((reached.callsOf ticks).flatten.map Prod.fst).count id = count / period ∧
          ∃ later ∈ caught.2.slot id, later.interval = timer.interval ∧
            later.callback = timer.callback ∧ later.counter.toNat = count % period) ∧
        caught.1.count = caught.1.callbacks.length ∧
        (caught.1.count = ∑ id : TimerId, (reached.slot id).elim 0 fun timer =>
          (timer.counter.toNat + ticks) / max timer.interval.toNat 1) ∧
        ∀ between, last ≤ between → between ≤ now →
          ((reached.advance between).1 ++ ((reached.advance between).2.advance now).1,
            ((reached.advance between).2.advance now).2) = caught := by
  intro reached readings
  have hfits : reached.Fits := fits_empty.performAll operations
  have hreading : reached.lastReading = readings.getLast? :=
    (lastReading_performAll .empty operations).trans (Option.or_none ..)
  refine ⟨length_runCalls .empty operations, fun first last hhead hlast ascending => ?_,
    fun now => ⟨?_, fun hnone => ?_, fun last hlast => ?_⟩⟩
  · obtain ⟨rest, hreadings⟩ := List.head?_eq_some_iff.mp hhead
    rw [hreadings] at hlast ascending ⊢
    exact sum_gaps ascending hlast
  · obtain ⟨journal, hcaught⟩ := reached.advance_eq now
    rw [hcaught]
  · have helapsed : reached.elapsed now = 0 := by
      rw [elapsed, hreading, hnone]
      rfl
    obtain ⟨journal, hcaught⟩ := reached.advance_eq now
    rw [hcaught, helapsed, ticks_zero]
    exact ⟨rfl, rfl⟩
  · intro ticks ticked
    have hlast : reached.lastReading = some last := hreading.trans hlast
    obtain ⟨hcallbacks, hticked⟩ := reached.performAll_ticks ticks
    rw [advance_of_some hlast now]
    refine ⟨hcallbacks.symm, by rw [hticked], callbacks_ticks .., fun id timer hslot => ?_,
      count_ticks .., count_ticks_eq_sum hfits ticks, fun between h₁ h₂ => ?_⟩
    · have hcount := count_callsOf hfits ticks id
      rw [hslot] at hcount
      refine ⟨hcount, timer.after ticks, ?_, rfl, rfl, timer.toNat_counter_after ticks⟩
      show (reached.ticks ticks).2.slot id = some (timer.after ticks)
      rw [slot_ticks hfits, hslot]
      rfl
    · rw [← advance_of_some hlast now]
      exact advance_advance hlast h₁ h₂

open TimerTable in
/-- Timers with intervals of four and of zero, the second one started while the source goes on from
10 to 19: seven ticks later the first has been called twice and has counted one, and the second has
been called seven times. -/
theorem advance_loses_no_tick_two :
    let first : TimerId := ⟨0, by decide⟩
    let fresh : List (TimerOperation Nat) := [.start 4 1]
    let operations := fresh ++ [.advance 10, .tick, .start 0 2, .advance 19]
    let reached := (TimerTable.empty.performAll operations).2
    ((TimerTable.empty.performAll fresh).2.advance 10).1 = {} ∧
    (TimerTable.empty.runCalls operations).flatten.length = 1 + 9 ∧
    (reached.advance 26).1.count = 9 ∧
    (∃ later ∈ (reached.advance 26).2.slot first, later.counter.toNat = 1) ∧
    (reached.advance 21).1 ++ ((reached.advance 21).2.advance 26).1 = (reached.advance 26).1 := by
  intro first fresh operations reached
  obtain ⟨-, -, hfresh⟩ := advance_loses_no_tick fresh
  obtain ⟨hlength, hgaps, hcaught⟩ := advance_loses_no_tick operations
  obtain ⟨-, hnone, -⟩ := hfresh 10
  obtain ⟨-, -, hsome⟩ := hcaught 26
  obtain ⟨-, -, -, hslots, -, hsum, hsplit⟩ := hsome 19 rfl
  have hticks : (gaps (operations.filterMap TimerOperation.reading?)).sum = 9 :=
    hgaps 10 19 rfl rfl (by decide)
  have hfirst : reached.slot first = some ⟨4, 1, 2⟩ := by decide +kernel
  obtain ⟨-, later, hlater, -, -, hcounter⟩ := hslots first _ hfirst
  refine ⟨(hnone rfl).1, by rw [hlength, hticks]; rfl, ?_, ⟨later, hlater, hcounter⟩,
    congrArg Prod.fst (hsplit 21 (by decide) (by decide))⟩
  rw [hsum]
  decide +kernel

end Firmware
