/-
  Firmware: what a bounded wait does. It answers at the first evaluation that holds, if that
  lies within the budget, and otherwise has made every evaluation and called the hook after
  each of them.
-/
import Firmware.Polling
import Mathlib.Logic.Function.Iterate

namespace Firmware

variable {σ : Type} {condition : σ → Bool × σ} {relax : σ → σ}

/-- An evaluation that fails, and the call of the hook after it. -/
def failedRound (condition : σ → Bool × σ) (relax : σ → σ) (s : σ) : σ := relax (condition s).2

theorem pollFrom_none (remaining attempt : Nat) (s : σ)
    (h : ∀ n < remaining, (condition ((failedRound condition relax)^[n] s)).1 = false) :
    pollFrom condition relax remaining attempt s =
      (.error .timeout, (failedRound condition relax)^[remaining] s) := by
  induction remaining generalizing attempt s with
  | zero => rfl
  | succ remaining ih =>
    have hfirst : (condition s).1 = false := h 0 (by omega)
    have hrest := ih (attempt + 1) (failedRound condition relax s)
      (fun n hn => h (n + 1) (by omega))
    rw [Function.iterate_succ_apply, ← hrest]
    rw [pollFrom, show condition s = (false, (condition s).2) from Prod.ext hfirst rfl]
    rfl

theorem pollFrom_first (remaining attempt n : Nat) (s : σ) (hn : n < remaining)
    (hbefore : ∀ i < n, (condition ((failedRound condition relax)^[i] s)).1 = false)
    (hnow : (condition ((failedRound condition relax)^[n] s)).1 = true) :
    pollFrom condition relax remaining attempt s =
      (.ok (attempt + n), (condition ((failedRound condition relax)^[n] s)).2) := by
  induction n generalizing remaining attempt s with
  | zero =>
    obtain ⟨remaining, rfl⟩ : ∃ r, remaining = r + 1 := ⟨remaining - 1, by omega⟩
    rw [pollFrom, show condition s = (true, (condition s).2) from Prod.ext hnow rfl]
    rfl
  | succ n ih =>
    obtain ⟨remaining, rfl⟩ : ∃ r, remaining = r + 1 := ⟨remaining - 1, by omega⟩
    have hfirst : (condition s).1 = false := hbefore 0 (by omega)
    have hrest := ih remaining (attempt + 1) (failedRound condition relax s) (by omega)
      (fun i hi => hbefore (i + 1) (by omega)) hnow
    rw [Function.iterate_succ_apply, show attempt + (n + 1) = attempt + 1 + n by omega, ← hrest]
    rw [pollFrom, show condition s = (false, (condition s).2) from Prod.ext hfirst rfl]
    rfl

/-- What evaluations and calls of the hook do to the state, and can be chained, a wait does. -/
theorem pollFrom_closed {R : σ → σ → Prop} (refl : ∀ s, R s s)
    (trans : ∀ {s t u}, R s t → R t u → R s u) (hcondition : ∀ s, R s (condition s).2)
    (hrelax : ∀ s, R s (relax s)) (remaining attempt : Nat) (s : σ) :
    R s (pollFrom condition relax remaining attempt s).2 := by
  induction remaining generalizing attempt s with
  | zero => exact refl s
  | succ remaining ih =>
    have h := hcondition s
    unfold pollFrom
    generalize condition s = evaluated at h ⊢
    obtain ⟨holds, t⟩ := evaluated
    cases holds with
    | true => exact h
    | false => exact trans h (trans (hrelax t) (ih (attempt + 1) (relax t)))

/-- A wait that answers in time ended with an evaluation that held. -/
theorem pollFrom_ok {R : σ → σ → Prop} (refl : ∀ s, R s s)
    (trans : ∀ {s t u}, R s t → R t u → R s u) (hcondition : ∀ s, R s (condition s).2)
    (hrelax : ∀ s, R s (relax s)) (remaining attempt : Nat) (s : σ) {n : Nat} {after : σ}
    (h : pollFrom condition relax remaining attempt s = (.ok n, after)) :
    ∃ last, R s last ∧ condition last = (true, after) := by
  induction remaining generalizing attempt s with
  | zero => cases h
  | succ remaining ih =>
    have hfirst := hcondition s
    unfold pollFrom at h
    cases heval : condition s with
    | mk holds t =>
      rw [heval] at h hfirst
      cases holds with
      | true =>
        cases h
        exact ⟨s, refl s, heval⟩
      | false =>
        obtain ⟨last, hlast, hholds⟩ := ih (attempt + 1) (relax t) h
        exact ⟨last, trans hfirst (trans (hrelax t) hlast), hholds⟩

variable (condition relax)

/-- A wait whose evaluations all fail runs out of its budget. -/
theorem pollUntil_none (budget : Nat) (s : σ)
    (h : ∀ n < budget, (condition ((failedRound condition relax)^[n] s)).1 = false) :
    pollUntil budget condition relax s =
      (.error .timeout, (failedRound condition relax)^[budget] s) :=
  pollFrom_none budget 1 s h

/-- A wait ends at the first evaluation that holds, number `n + 1`. -/
theorem pollUntil_first (budget n : Nat) (s : σ) (hn : n < budget)
    (hbefore : ∀ i < n, (condition ((failedRound condition relax)^[i] s)).1 = false)
    (hnow : (condition ((failedRound condition relax)^[n] s)).1 = true) :
    pollUntil budget condition relax s =
      (.ok (n + 1), (condition ((failedRound condition relax)^[n] s)).2) := by
  rw [Nat.add_comm]
  exact pollFrom_first budget 1 n s hn hbefore hnow

end Firmware
