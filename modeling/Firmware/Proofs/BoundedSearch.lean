/-
  Firmware: a bounded wait is an exact search. Its steps are kept beside the state that condition
  and hook share, so that it can be told which evaluations were made, in which order, and when the
  hook was called between them. `pollUntil_searches` says that a wait finds the first evaluation
  that holds, if there is one within the budget, and that it does nothing else.
-/
import Firmware.Proofs.Polling

namespace Firmware

variable {σ : Type}

/-- One step of a wait. -/
inductive PollStep where
  | evaluated (holds : Bool)
  /-- The hook was called. -/
  | relaxed
  deriving DecidableEq

/-- What the evaluations among some steps found, in order. -/
def evaluations (steps : List PollStep) : List Bool :=
  steps.filterMap fun
    | .evaluated holds => some holds
    | .relaxed => none

/-- Evaluations and calls of the hook take turns, and an evaluation comes first. -/
def TakesTurns (steps : List PollStep) : Prop :=
  ∀ i step, steps[i]? = some step → (step = .relaxed ↔ i % 2 = 1)

/-- As many failed evaluations as there are rounds, each with a call of the hook after it. -/
def failedRounds : Nat → List PollStep
  | 0 => []
  | n + 1 => .evaluated false :: .relaxed :: failedRounds n

/-! ## Steps of rounds -/

theorem evaluations_append (first second : List PollStep) :
    evaluations (first ++ second) = evaluations first ++ evaluations second :=
  List.filterMap_append

theorem evaluations_failedRounds (n : Nat) :
    evaluations (failedRounds n) = List.replicate n false := by
  induction n with
  | zero => rfl
  | succ n ih => exact congrArg (false :: ·) ih

theorem count_relaxed_failedRounds (n : Nat) : (failedRounds n).count .relaxed = n := by
  induction n with
  | zero => rfl
  | succ n ih =>
    unfold failedRounds
    rw [List.count_cons_of_ne (by decide), List.count_cons_self, ih]

/-- One more round in front changes no turn, for it takes two steps. -/
theorem TakesTurns.round {steps : List PollStep} (turns : TakesTurns steps) (holds : Bool) :
    TakesTurns (.evaluated holds :: .relaxed :: steps) := by
  intro i step hstep
  match i with
  | 0 =>
    obtain rfl : PollStep.evaluated holds = step := Option.some.inj hstep
    simp
  | 1 =>
    obtain rfl : PollStep.relaxed = step := Option.some.inj hstep
    simp
  | i + 2 =>
    have hrest := turns i step hstep
    rw [hrest]
    omega

theorem takesTurns_last (holds : Bool) : TakesTurns [.evaluated holds] := by
  intro i step hstep
  match i with
  | 0 =>
    obtain rfl : PollStep.evaluated holds = step := Option.some.inj hstep
    simp
  | i + 1 => simp at hstep

theorem takesTurns_failedRounds (n : Nat) : TakesTurns (failedRounds n) := by
  induction n with
  | zero => exact fun i step hstep => absurd hstep (by simp [failedRounds])
  | succ n ih => exact ih.round false

theorem takesTurns_found (n : Nat) : TakesTurns (failedRounds n ++ [.evaluated true]) := by
  induction n with
  | zero => exact takesTurns_last true
  | succ n ih => exact ih.round false

/-! ## Waits with their steps -/

/-- A state together with what a wait did on it. -/
structure Polled (σ : Type) where
  state : σ
  /-- The steps, the latest first. -/
  latestFirst : List PollStep := []

namespace Polled

/-- What was done, in order. -/
def steps (polled : Polled σ) : List PollStep := polled.latestFirst.reverse

def note (polled : Polled σ) (step : PollStep) : Polled σ :=
  { polled with latestFirst := step :: polled.latestFirst }

@[simp] theorem steps_note (polled : Polled σ) (step : PollStep) :
    (polled.note step).steps = polled.steps ++ [step] :=
  List.reverse_cons

/-- The same condition, with its evaluations kept. -/
def evaluate (condition : σ → Bool × σ) (polled : Polled σ) : Bool × Polled σ :=
  let (holds, state) := condition polled.state
  (holds, { polled with state }.note (.evaluated holds))

/-- The same hook, with its calls kept. -/
def relax (relax : σ → σ) (polled : Polled σ) : Polled σ :=
  { polled with state := relax polled.state }.note .relaxed

variable (condition : σ → Bool × σ) (relax : σ → σ) (polled : Polled σ)

theorem steps_evaluate : (evaluate condition polled).2.steps =
    polled.steps ++ [.evaluated (condition polled.state).1] :=
  steps_note ..

theorem steps_failedRound : (failedRound (evaluate condition) (Polled.relax relax) polled).steps =
    polled.steps ++ [.evaluated (condition polled.state).1, .relaxed] := by
  have hevaluated := steps_evaluate condition polled
  unfold failedRound Polled.relax
  rw [steps_note]
  show (evaluate condition polled).2.steps ++ [PollStep.relaxed] = _
  rw [hevaluated, List.append_assoc]
  rfl

/-- What is kept does not touch the state. -/
theorem state_rounds (n : Nat) :
    ((failedRound (evaluate condition) (Polled.relax relax))^[n] polled).state =
      (failedRound condition relax)^[n] polled.state := by
  have hround : Function.Semiconj Polled.state
      (failedRound (evaluate condition) (Polled.relax relax)) (failedRound condition relax) :=
    fun _ => rfl
  exact hround.iterate_right n polled

variable {condition relax}

theorem steps_rounds (n : Nat) (polled : Polled σ)
    (fails : ∀ i < n, (condition ((failedRound condition relax)^[i] polled.state)).1 = false) :
    ((failedRound (evaluate condition) (Polled.relax relax))^[n] polled).steps =
      polled.steps ++ failedRounds n := by
  induction n generalizing polled with
  | zero => exact (List.append_nil _).symm
  | succ n ih =>
    have hfirst : (condition polled.state).1 = false := fails 0 (Nat.succ_pos n)
    have hrest := ih (failedRound (evaluate condition) (Polled.relax relax) polled)
      fun i hi => fails (i + 1) (Nat.succ_lt_succ hi)
    rw [Function.iterate_succ_apply, hrest, steps_failedRound, hfirst, List.append_assoc]
    rfl

end Polled

/-! ## The search -/

section

variable (condition : σ → Bool × σ) (relax : σ → σ) (s : σ)

/-- What evaluation number `n` finds, counted from one, after rounds that failed. -/
def evaluation (n : Nat) : Bool := (condition ((failedRound condition relax)^[n - 1] s)).1

/-- Evaluation number `n` is the first that holds. -/
structure FirstToHold (n : Nat) : Prop where
  positive : 1 ≤ n
  holds : evaluation condition relax s n = true
  fails : ∀ i, 1 ≤ i → i < n → evaluation condition relax s i = false

variable {condition relax s}

/-- Within a budget either some evaluation is the first that holds, or all of them fail. -/
theorem exists_firstToHold (budget : Nat) :
    (∃ n ≤ budget, FirstToHold condition relax s n) ∨
      ∀ n, 1 ≤ n → n ≤ budget → evaluation condition relax s n = false := by
  induction budget with
  | zero =>
    right
    intro n hpositive hn
    omega
  | succ budget ih =>
    rcases ih with ⟨n, hn, hfirst⟩ | hfails
    · exact .inl ⟨n, Nat.le_succ_of_le hn, hfirst⟩
    · cases hlast : evaluation condition relax s (budget + 1) with
      | true =>
        left
        exact ⟨budget + 1, Nat.le_refl _, Nat.succ_pos budget, hlast,
          fun i hpositive hi => hfails i hpositive (Nat.le_of_lt_succ hi)⟩
      | false =>
        right
        intro n hpositive hn
        rcases Nat.le_succ_iff.mp hn with h | h
        · exact hfails n hpositive h
        · rw [h, hlast]

variable {budget : Nat}

theorem pollUntil_of_first {n : Nat} (hfirst : FirstToHold condition relax s n)
    (hn : n ≤ budget) : pollUntil budget condition relax s =
      (.ok n, (condition ((failedRound condition relax)^[n - 1] s)).2) := by
  have hpositive := hfirst.positive
  have hfound := pollUntil_first condition relax budget (n - 1) s (by omega)
    (fun i hi => hfirst.fails (i + 1) (Nat.succ_pos i) (by omega)) hfirst.holds
  rwa [Nat.sub_add_cancel hpositive] at hfound

theorem pollUntil_of_fails
    (hfails : ∀ n, 1 ≤ n → n ≤ budget → evaluation condition relax s n = false) :
    pollUntil budget condition relax s =
      (.error .timeout, (failedRound condition relax)^[budget] s) :=
  pollUntil_none condition relax budget s fun n hn => hfails (n + 1) (Nat.succ_pos n) hn

end

section

variable {condition : σ → Bool × σ} {relax : σ → σ} {s : σ} {budget : Nat}

/-- What the evaluations find does not depend on whether they are kept. -/
theorem evaluation_polled (n : Nat) :
    evaluation (Polled.evaluate condition) (Polled.relax relax) { state := s } n =
      evaluation condition relax s n :=
  congrArg (fun t => (condition t).1) (Polled.state_rounds condition relax { state := s } (n - 1))

theorem FirstToHold.polled {n : Nat} (hfirst : FirstToHold condition relax s n) :
    FirstToHold (Polled.evaluate condition) (Polled.relax relax) { state := s } n where
  positive := hfirst.positive
  holds := by rw [evaluation_polled, hfirst.holds]
  fails i h₁ h₂ := by rw [evaluation_polled, hfirst.fails i h₁ h₂]

/-- A search that finds something in time has made only the evaluations up to that one. -/
theorem polled_of_first {n : Nat} (hfirst : FirstToHold condition relax s n) (hn : n ≤ budget) :
    let run := pollUntil budget (Polled.evaluate condition) (Polled.relax relax) { state := s }
    (run.1, run.2.state) = pollUntil budget condition relax s ∧ run.1 = .ok n ∧
      run.2.steps = failedRounds (n - 1) ++ [.evaluated true] := by
  intro run
  let last := (failedRound (Polled.evaluate condition) (Polled.relax relax))^[n - 1] { state := s }
  have hrun : run = (.ok n, (Polled.evaluate condition last).2) :=
    pollUntil_of_first hfirst.polled hn
  have hstate : last.state = (failedRound condition relax)^[n - 1] s :=
    Polled.state_rounds condition relax _ _
  have hsteps : last.steps = failedRounds (n - 1) := by
    refine Polled.steps_rounds (n - 1) _ fun i hi => ?_
    exact hfirst.fails (i + 1) (Nat.succ_pos i) (by omega)
  have hholds : (condition last.state).1 = true := by rw [hstate]; exact hfirst.holds
  rw [hrun]
  refine ⟨?_, rfl, ?_⟩
  · rw [pollUntil_of_first hfirst hn, ← hstate]
    rfl
  · rw [Polled.steps_evaluate, hsteps, hholds]

/-- A search that finds nothing in time has made every evaluation of its budget. -/
theorem polled_of_fails
    (hfails : ∀ n, 1 ≤ n → n ≤ budget → evaluation condition relax s n = false) :
    let run := pollUntil budget (Polled.evaluate condition) (Polled.relax relax) { state := s }
    (run.1, run.2.state) = pollUntil budget condition relax s ∧ run.1 = .error .timeout ∧
      run.2.steps = failedRounds budget := by
  intro run
  let last := (failedRound (Polled.evaluate condition) (Polled.relax relax))^[budget] { state := s }
  have hrun : run = (.error .timeout, last) :=
    pollUntil_of_fails fun n h₁ h₂ => by rw [evaluation_polled, hfails n h₁ h₂]
  have hstate : last.state = (failedRound condition relax)^[budget] s :=
    Polled.state_rounds condition relax _ _
  rw [hrun]
  refine ⟨?_, rfl, ?_⟩
  · rw [pollUntil_of_fails hfails, ← hstate]
  · refine Polled.steps_rounds budget _ fun i hi => ?_
    exact hfails (i + 1) (Nat.succ_pos i) (Nat.succ_le_of_lt hi)

theorem fails_of_not_first (hnone : ∀ n ≤ budget, ¬FirstToHold condition relax s n) :
    ∀ n, 1 ≤ n → n ≤ budget → evaluation condition relax s n = false := by
  obtain ⟨n, hn, hfirst⟩ | hfails := exists_firstToHold budget
  · exact absurd hfirst (hnone n hn)
  · exact hfails

/-- The answer of a search is the number of the first evaluation that holds. -/
theorem polled_eq_ok_iff {n : Nat} :
    (pollUntil budget (Polled.evaluate condition) (Polled.relax relax) { state := s }).1 = .ok n ↔
      n ≤ budget ∧ FirstToHold condition relax s n := by
  constructor
  · intro h
    obtain ⟨first, hbudget, hfirst⟩ | hfails :
        (∃ n ≤ budget, FirstToHold condition relax s n) ∨
          ∀ n, 1 ≤ n → n ≤ budget → evaluation condition relax s n = false :=
      exists_firstToHold budget
    · obtain rfl : first = n :=
        Except.ok.inj ((polled_of_first hfirst hbudget).2.1.symm.trans h)
      exact ⟨hbudget, hfirst⟩
    · cases (polled_of_fails hfails).2.1.symm.trans h
  · intro h
    exact (polled_of_first h.2 h.1).2.1

/-- Without one the budget runs out. -/
theorem polled_eq_error_iff {e : Error} :
    (pollUntil budget (Polled.evaluate condition) (Polled.relax relax) { state := s }).1 =
        .error e ↔
      e = .timeout ∧ ∀ n ≤ budget, ¬FirstToHold condition relax s n := by
  constructor
  · intro h
    have hnone : ∀ n ≤ budget, ¬FirstToHold condition relax s n := by
      intro n hn hfirst
      cases (polled_of_first hfirst hn).2.1.symm.trans h
    have htimeout := (polled_of_fails (fails_of_not_first hnone)).2.1.symm.trans h
    exact ⟨(Except.error.inj htimeout).symm, hnone⟩
  · rintro ⟨rfl, hnone⟩
    exact (polled_of_fails (fails_of_not_first hnone)).2.1

end

/-- **A wait is an exact bounded search.** Condition and hook may share all of the state. Keeping
the steps of a wait changes neither its answer nor what it leaves. Evaluations and calls of the hook
take turns, and an evaluation comes first. The answer is a number exactly if that is the number of
the first evaluation that holds and lies within the budget; then the evaluations before it were
made and failed, no further one was made, and the hook was called once less often. In every other
case the budget ran out: as many evaluations as it allows were made, all of which failed, and the
hook was called after each of them. -/
theorem pollUntil_searches (condition : σ → Bool × σ) (relax : σ → σ) (budget : Nat) (s : σ) :
    let run := pollUntil budget (Polled.evaluate condition) (Polled.relax relax) { state := s }
    let steps := run.2.steps
    (run.1, run.2.state) = pollUntil budget condition relax s ∧
    TakesTurns steps ∧
    (∀ n, run.1 = .ok n ↔ n ≤ budget ∧ FirstToHold condition relax s n) ∧
    (∀ n, run.1 = .ok n →
      evaluations steps = List.replicate (n - 1) false ++ [true] ∧
      steps.count .relaxed = n - 1) ∧
    (∀ e, run.1 = .error e ↔ e = .timeout ∧ ∀ n ≤ budget, ¬FirstToHold condition relax s n) ∧
    (∀ e, run.1 = .error e →
      evaluations steps = List.replicate budget false ∧
      steps.count .relaxed = budget) := by
  intro run steps
  have hmade (n : Nat) (h : run.1 = .ok n) : steps = failedRounds (n - 1) ++ [.evaluated true] :=
    (polled_of_first (polled_eq_ok_iff.mp h).2 (polled_eq_ok_iff.mp h).1).2.2
  have hran (e : Error) (h : run.1 = .error e) : steps = failedRounds budget :=
    (polled_of_fails (fails_of_not_first (polled_eq_error_iff.mp h).2)).2.2
  refine ⟨?_, ?_, fun n => polled_eq_ok_iff, fun n h => ⟨?_, ?_⟩, fun e => polled_eq_error_iff,
    fun e h => ⟨?_, ?_⟩⟩
  · obtain ⟨n, hn, hfirst⟩ | hfails := exists_firstToHold budget
    · exact (polled_of_first hfirst hn).1
    · exact (polled_of_fails hfails).1
  · cases h : run.1 with
    | ok n =>
      rw [hmade n h]
      exact takesTurns_found (n - 1)
    | error e =>
      rw [hran e h]
      exact takesTurns_failedRounds budget
  · rw [hmade n h, evaluations_append, evaluations_failedRounds]
    rfl
  · rw [hmade n h, List.count_append, count_relaxed_failedRounds]
    rfl
  · rw [hran e h, evaluations_failedRounds]
  · rw [hran e h, count_relaxed_failedRounds]

/-- A condition that only the hook can bring about: it holds once the hook has been called three
times. A budget of four evaluations is enough, and with three the hook is called a last time after
the budget has run out. -/
theorem pollUntil_searches_brought_about :
    let waited (budget : Nat) := pollUntil budget (Polled.evaluate fun calls => (calls = 3, calls))
      (Polled.relax (· + 1)) { state := 0 }
    (waited 4).1 = .ok 4 ∧ evaluations (waited 4).2.steps = [false, false, false, true] ∧
    (waited 4).2.steps.count .relaxed = 3 ∧ (waited 3).1 = .error .timeout ∧
    (waited 3).2.steps.count .relaxed = 3 := by
  intro waited
  obtain ⟨-, -, -, hfound, -, -⟩ :=
    pollUntil_searches (fun calls : Nat => (calls = 3, calls)) (· + 1) 4 0
  obtain ⟨-, -, -, -, -, hran⟩ :=
    pollUntil_searches (fun calls : Nat => (calls = 3, calls)) (· + 1) 3 0
  have hanswer : (waited 4).1 = .ok 4 := rfl
  have hnone : (waited 3).1 = .error .timeout := rfl
  exact ⟨hanswer, (hfound 4 hanswer).1, (hfound 4 hanswer).2, hnone, (hran .timeout hnone).2⟩

end Firmware
