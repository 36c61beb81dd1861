/-
  Firmware: repeated exchanges as series of transactions, on any hardware. Each transaction of a
  series is a whole one with the same address; it finds the hardware and the payload as the one
  before it left them. A repeated exchange is a series that ends with its first success.
-/
import Firmware.Proofs.I2c.Controller
import Firmware.Proofs.I2c.Outcomes

namespace Firmware.I2c

variable {σ : Type} {hardware : Hardware σ} {address : Address} {budget : Nat}

/-- Transactions with an address, one after the other, and what they came to. -/
inductive Series (hardware : Hardware σ) (address : Address) (budget : Nat) :
    Payload → σ → List Outcome → Payload → σ → Prop where
  | nil (payload : Payload) (s : σ) : Series hardware address budget payload s [] payload s
  | cons {payload payload' payload'' : Payload} {s s' s'' : σ} {outcome : Outcome}
    {outcomes : List Outcome} :
    (⟨address, payload, budget⟩ : Transaction).run hardware s = (outcome, payload', s') →
    Series hardware address budget payload' s' outcomes payload'' s'' →
    Series hardware address budget payload s (outcome :: outcomes) payload'' s''

theorem Series.alike {payload payload' : Payload} {s s' : σ} {outcomes : List Outcome}
    (series : Series hardware address budget payload s outcomes payload' s') :
    payload.Alike payload' := by
  induction series with
  | nil payload => exact .refl payload
  | @cons payload _ _ s _ _ _ _ hrun _ ih =>
    have h := run_alike hardware ⟨address, payload, budget⟩ s
    rw [hrun] at h
    exact h.trans ih

/-- What up to `limit` transactions come to if they end with the first success. -/
inductive Repeated (limit : Nat) : List Outcome → Except Error Unit → Prop where
  | succeeded {failed : List Outcome} : failed.length < limit → .ok () ∉ failed →
    Repeated limit (failed ++ [.ok ()]) (.ok ())
  | failed {outcomes : List Outcome} : outcomes.length = limit → .ok () ∉ outcomes →
    Repeated limit outcomes (.error .failed)

namespace Repeated

variable {limit : Nat} {outcomes : List Outcome} {result : Except Error Unit}

theorem length_le (h : Repeated limit outcomes result) : outcomes.length ≤ limit := by
  cases h with
  | succeeded hless _ =>
    rw [List.length_append]
    exact hless
  | failed hlength _ => exact Nat.le_of_eq hlength

/-- Without an attempt left there was no transaction, and with one left there was some. -/
theorem eq_nil_iff (h : Repeated limit outcomes result) : outcomes = [] ↔ limit = 0 := by
  cases h with
  | @succeeded failed hless _ => simpa using Nat.ne_zero_of_lt hless
  | failed hlength _ => rw [← hlength, List.length_eq_zero_iff]

theorem ok_iff (h : Repeated limit outcomes result) :
    result = .ok () ↔ ∃ failed, outcomes = failed ++ [.ok ()] ∧ .ok () ∉ failed := by
  cases h with
  | @succeeded failed _ hnone => exact ⟨fun _ => ⟨failed, rfl, hnone⟩, fun _ => rfl⟩
  | failed _ hnone =>
    refine ⟨nofun, ?_⟩
    rintro ⟨failed, rfl, -⟩
    exact absurd (List.mem_append_right failed List.mem_cons_self) hnone

theorem failed_iff (h : Repeated limit outcomes result) :
    result = .error .failed ↔ outcomes.length = limit ∧ .ok () ∉ outcomes := by
  cases h with
  | succeeded _ _ =>
    exact ⟨nofun, fun h => absurd (List.mem_append_right _ List.mem_cons_self) h.2⟩
  | failed hlength hnone => exact ⟨fun _ => ⟨hlength, hnone⟩, fun _ => rfl⟩

/-- The result tells whether some transaction succeeded; without one all attempts were made. -/
theorem result_eq (h : Repeated limit outcomes result) :
    result = .ok () ∧ .ok () ∈ outcomes ∨
      result = .error .failed ∧ .ok () ∉ outcomes ∧ outcomes.length = limit := by
  cases h with
  | succeeded _ _ => exact .inl ⟨rfl, List.mem_append_right _ List.mem_cons_self⟩
  | failed hlength hnone => exact .inr ⟨rfl, hnone, hlength⟩

/-- One more transaction, which failed, in front. -/
theorem cons (h : Repeated limit outcomes result) (phase : Phase) :
    Repeated (limit + 1) (.error phase :: outcomes) result := by
  have hmem {failed : List Outcome} (hnone : .ok () ∉ failed) : .ok () ∉ .error phase :: failed :=
    fun hmem => (List.mem_cons.mp hmem).elim nofun hnone
  cases h with
  | @succeeded failed hless hnone =>
    exact .succeeded (Nat.succ_lt_succ hless) (hmem hnone)
  | failed hlength hnone => exact .failed (congrArg (· + 1) hlength) (hmem hnone)

end Repeated

/-! ## Counting -/

/-- Counts transactions each of which but the last is made again. -/
def Statistics.countSeries (statistics : Statistics) : List Outcome → Statistics
  | [] => statistics
  | outcome :: rest =>
    let counted := statistics.count outcome
    (if rest = [] then counted else counted.countRetry).countSeries rest

namespace Statistics

variable (statistics : Statistics) (outcomes : List Outcome)

/-- A counter that retries leave alone, and that a transaction with a property increments, counts
the transactions that have it. -/
theorem countSeries_of_countP (counter : Statistics → Nat) (p : Outcome → Bool)
    (hcount : ∀ s outcome, counter (count s outcome) = counter s + if p outcome then 1 else 0)
    (hretry : ∀ s, counter (countRetry s) = counter s) :
    counter (statistics.countSeries outcomes) = counter statistics + outcomes.countP p := by
  induction outcomes generalizing statistics with
  | nil => rfl
  | cons outcome rest ih =>
    have hfirst : counter (if rest = [] then statistics.count outcome
        else (statistics.count outcome).countRetry) =
          counter statistics + if p outcome then 1 else 0 := by
      split
      · exact hcount statistics outcome
      · rw [hretry, hcount]
    rw [countSeries, ih, hfirst, List.countP_cons, Nat.add_assoc, Nat.add_comm (List.countP p rest)]

theorem transactions_countSeries :
    (statistics.countSeries outcomes).transactions = statistics.transactions + outcomes.length := by
  rw [countSeries_of_countP statistics outcomes (·.transactions) (fun _ => true) transactions_count
    fun _ => rfl, List.countP_true]

theorem timeouts_countSeries :
    (statistics.countSeries outcomes).timeouts =
      statistics.timeouts + outcomes.countP fun outcome => !outcome.isOk := by
  have hcount (s : Statistics) (outcome : Outcome) :
      (s.count outcome).timeouts = s.timeouts + if !outcome.isOk then 1 else 0 := by
    rw [timeouts_count]
    cases outcome with
    | ok _ => rfl
    | error _ => rfl
  exact countSeries_of_countP statistics outcomes (·.timeouts) _ hcount fun _ => rfl

theorem retries_countSeries :
    (statistics.countSeries outcomes).retries =
      statistics.retries + (outcomes.length - 1) := by
  induction outcomes generalizing statistics with
  | nil => rfl
  | cons outcome rest ih =>
    have hcount := retries_count statistics outcome
    rw [countSeries, ih, List.length_cons]
    split
    · next hlast =>
      subst hlast
      exact hcount
    · next hmore =>
      have hlength : 0 < rest.length := List.length_pos_iff.mpr hmore
      show (statistics.count outcome).retries + 1 + _ = _
      omega

end Statistics

namespace Controller

variable (hardware)

theorem attempts_series (limit : Nat) (address : Address) (remaining : Nat) (payload : Payload)
    (c : Controller σ) : ∃ outcomes result payload' c',
      c.attempts hardware limit address.value remaining payload = (result, payload', c') ∧
      c'.config = c.config ∧ c'.statistics = c.statistics.countSeries outcomes ∧
      Series (c.window hardware) address c.config.timeoutBudget.toNat payload c.bus outcomes
        payload' c'.bus ∧
      Repeated remaining outcomes result := by
  induction remaining generalizing payload c with
  | zero => exact ⟨[], _, payload, c, rfl, rfl, rfl, .nil payload c.bus, .failed rfl nofun⟩
  | succ remaining ih =>
    cases hrun : (c.exchanged address payload).run (c.window hardware) c.bus with
    | mk outcome rest =>
    obtain ⟨payload', bus⟩ := rest
    cases outcome with
    | ok _ =>
      obtain ⟨journal, hattempts⟩ := attempts_of_ok hardware limit remaining hrun
      have hnone : .ok () ∉ ([] : List Outcome) := List.not_mem_nil
      exact ⟨[.ok ()], _, payload', _, hattempts, rfl, rfl, .cons hrun (.nil payload' bus),
        .succeeded (Nat.zero_lt_succ remaining) hnone⟩
    | error phase =>
      obtain ⟨c₁, hattempts, hconfig, rfl, hcounted⟩ :=
        attempts_of_error hardware limit remaining hrun
      obtain ⟨outcomes, result, payload'', c', hrest, hconfig', hcounted', hseries, hrepeated⟩ :=
        ih payload' c₁
      rw [window, hconfig] at hseries
      refine ⟨.error phase :: outcomes, result, payload'', c', hattempts.trans hrest,
        hconfig'.trans hconfig, ?_, .cons hrun hseries, hrepeated.cons phase⟩
      rw [hcounted', hcounted, Statistics.countSeries]
      simp only [hrepeated.eq_nil_iff]

/-- An exchange that is tried up to `limit` times is a series with its first success at the end. -/
theorem exchangeWithRetries_series (limit : Nat) (address : Address) (payload : Payload)
    (c : Controller σ) : ∃ outcomes result payload' c',
      c.exchangeWithRetries hardware limit address.value payload = (result, payload', c') ∧
      c'.config = c.config ∧ c'.statistics = c.statistics.countSeries outcomes ∧
      Series (c.window hardware) address c.config.timeoutBudget.toNat payload c.bus outcomes
        payload' c'.bus ∧
      Repeated limit outcomes result := by
  cases limit with
  | zero =>
    rw [exchangeWithRetries_zero]
    exact ⟨[], _, payload, _, rfl, rfl, rfl, .nil payload c.bus, .failed rfl nofun⟩
  | succ limit =>
    rw [exchangeWithRetries_pos hardware (Nat.zero_lt_succ limit)]
    exact attempts_series hardware (limit + 1) address (limit + 1) payload c

end Controller

end Firmware.I2c
