/-
  Firmware: the interrupt table as a map from lines to handlers. What is registered on a line
  after a run is what the latest step that succeeded there left, be it inside of critical
  sections or not, and whatever asks for handlers is answered from that map. The main result,
  `handlers_last_registered`, says so of every step of a run over any controller.
-/
import Firmware.Proofs.Events
import Firmware.Proofs.Interrupts.Controllers

namespace Firmware

variable {κ η α : Type}

namespace InterruptStep

/-- What a step leaves on a line, if it registers something there or removes it. -/
def leaves? (line : Nat) (step : InterruptStep κ η α) : Option (Option (Descriptor η)) :=
  match step.operation, step.answer with
  | .register l handler context priority, .result (.ok ()) =>
    if l = line then some (some { line := l, handler, context, priority }) else none
  | .remove l, _ => if l = line then some none else none
  | _, _ => none

/-- The calls of handlers that a step made. -/
def calls (step : InterruptStep κ η α) : List (η × UInt64) :=
  match step.answer with
  | .dispatched dispatch => dispatch.calls
  | _ => []

/-- An operation on the handlers is answered from what is registered by line. -/
def AnsweredFrom (found : Nat → Option (Descriptor η)) (step : InterruptStep κ η α) : Prop :=
  match step.operation with
  | .register line _ _ _ =>
    step.answer = .result (if line < interruptLines then .ok () else .error (.outOfRange line))
  | .remove _ => step.answer = .done
  | .dispatch line => step.answer = .dispatched (.of (found line))
  | .descriptor line => step.answer = .descriptor (found line)
  | .registeredLines => ∃ lines, step.answer = .lines lines ∧ lines.Pairwise (· < ·) ∧
      ∀ line, line ∈ lines ↔ (found line).isSome
  | _ => True

end InterruptStep

/-- What is registered by line after steps: the latest one that left something decides. -/
def registrations (found : Nat → Option (Descriptor η)) (history : List (InterruptStep κ η α))
    (line : Nat) : Option (Descriptor η) :=
  latest (InterruptStep.leaves? line) (found line) history

theorem registrations_append (found : Nat → Option (Descriptor η))
    (first second : List (InterruptStep κ η α)) :
    registrations found (first ++ second) = registrations (registrations found first) second :=
  funext fun _ => latest_append first second

theorem registrations_cons (found : Nat → Option (Descriptor η)) (step : InterruptStep κ η α)
    (history : List (InterruptStep κ η α)) :
    registrations found (step :: history) = registrations (registrations found [step]) history :=
  registrations_append found [step] history

theorem registrations_singleton (found : Nat → Option (Descriptor η)) (step : InterruptStep κ η α)
    (line : Nat) : registrations found [step] line = (step.leaves? line).getD (found line) :=
  latest_singleton step

theorem registrations_silent {found : Nat → Option (Descriptor η)} {step : InterruptStep κ η α}
    (silent : ∀ line, step.leaves? line = none) : registrations found [step] = found := by
  funext line
  rw [registrations_singleton, silent]
  rfl

theorem InterruptStep.leaves?_of_masks {step : InterruptStep κ η α} {masked : Nat × Bool}
    (asks : step.operation.masks? = some masked) (line : Nat) : step.leaves? line = none := by
  obtain ⟨operation, answer, enabled⟩ := step
  cases operation with
  | enable l | disable l => rfl
  | _ => cases asks

/-- What is registered on a line carries that line. -/
theorem line_of_registrations {found : Nat → Option (Descriptor η)}
    (carried : ∀ line, ∀ d ∈ found line, d.line = line)
    (history : List (InterruptStep κ η α)) (line : Nat) :
    ∀ d ∈ registrations found history line, d.line = line := by
  induction history generalizing found with
  | nil => exact carried line
  | cons step rest ih =>
    rw [registrations_cons]
    refine ih fun line d hd => ?_
    rw [registrations_singleton] at hd
    cases hleaves : step.leaves? line with
    | none =>
      rw [hleaves] at hd
      exact carried line d hd
    | some left =>
      rw [hleaves] at hd
      obtain ⟨operation, answer, enabled⟩ := step
      unfold InterruptStep.leaves? at hleaves
      split at hleaves
      · split at hleaves <;> cases hleaves
        cases hd
        assumption
      · split at hleaves <;> cases hleaves
        cases hd
      · cases hleaves

namespace InterruptRun

/-- What is registered by line. -/
def found (run : InterruptRun κ η) : Nat → Option (Descriptor η) := run.table.descriptor?

theorem found_congr {run run' : InterruptRun κ η}
    (h : run'.table.descriptors = run.table.descriptors) : run'.found = run.found :=
  funext (InterruptTable.descriptor?_congr h)

variable [InterruptController κ] {run next after : InterruptRun κ η}
  {operation : InterruptOperation κ η α} {answer : InterruptAnswer η α}
  {history : List (InterruptStep κ η α)}

/-! ## One operation -/

/-- One operation changes what is registered as its step says. -/
theorem Effect.found (effect : Effect run operation answer next) :
    next.found = registrations run.found [⟨operation, answer, next.enabled⟩] := by
  cases effect with
  | @registered line h handler context priority journal =>
    funext other
    rw [registrations_singleton]
    refine (InterruptTable.descriptor?_set h _ other).trans ?_
    simp only [InterruptStep.leaves?]
    split <;> rfl
  | removed line =>
    funext other
    rw [registrations_singleton]
    refine (InterruptTable.descriptor?_remove run.table line other).trans ?_
    simp only [InterruptStep.leaves?]
    split <;> rfl
  | masked asks h answered journal =>
    rw [registrations_silent (InterruptStep.leaves?_of_masks asks)]
    exact found_congr rfl
  | notMasked asks h journal =>
    rw [registrations_silent (InterruptStep.leaves?_of_masks asks)]
    exact found_congr rfl
  | saved =>
    rw [registrations_silent fun line => rfl]
    exact found_congr (InterruptTable.saveAndDisable_descriptors run.table)
  | dispatched line journal | restored flags | acted answered =>
    rw [registrations_silent fun line => rfl]
    exact found_congr rfl
  | notRegistered h handler context priority | described line | listed =>
    rw [registrations_silent fun line => rfl]

theorem Effect.answeredFrom (effect : Effect run operation answer next) (enabled : Bool) :
    (⟨operation, answer, enabled⟩ : InterruptStep κ η α).AnsweredFrom run.found := by
  cases effect with
  | registered h => exact congrArg InterruptAnswer.result (if_pos h).symm
  | notRegistered h => exact congrArg InterruptAnswer.result (if_neg (Nat.not_lt.mpr h)).symm
  | removed line | dispatched line journal | described line => rfl
  | listed =>
    exact ⟨_, rfl, run.table.pairwise_registeredLines, fun line =>
      InterruptTable.mem_registeredLines⟩
  | saved | restored flags | acted answered => trivial
  | masked asks | notMasked asks =>
    cases operation with
    | enable line | disable line => trivial
    | _ => cases asks

theorem Effect.calls (effect : Effect run operation answer next) (enabled : Bool) :
    next.latestCalls =
      (⟨operation, answer, enabled⟩ : InterruptStep κ η α).calls.reverse ++ run.latestCalls := by
  cases effect with
  | _ => rfl

/-! ## Runs -/

theorem found_entered (run : InterruptRun κ η) : run.entered.found = run.found :=
  found_congr (InterruptTable.saveAndDisable_descriptors run.table)

theorem found_left (run inside : InterruptRun κ η) : (run.left inside).found = inside.found :=
  found_congr rfl

/-- A run changes what is registered as its steps say. -/
theorem Course.found (course : Course run history after) :
    after.found = registrations run.found history := by
  induction course with
  | done run => rfl
  | plain effect rest ih => rw [registrations_cons, ih, effect.found]
  | critical body answers within rest inner ih =>
    rw [registrations_append, registrations_cons, ih, found_left, inner, found_entered,
      registrations_silent fun line => rfl]

/-- Every step is answered from what the steps before it left registered. -/
theorem Course.answeredFrom (course : Course run history after) :
    Along (fun before step => step.AnsweredFrom (registrations run.found before)) history := by
  induction course with
  | done run => exact along_nil
  | plain effect rest ih =>
    refine along_cons (effect.answeredFrom _) (ih.mono fun before step h => ?_)
    rwa [effect.found, ← registrations_cons] at h
  | critical body answers within rest inner ih =>
    rw [found_entered] at inner
    refine along_append inner (along_cons trivial (ih.mono fun before step h => ?_))
    rw [registrations_append, registrations_cons, registrations_silent fun line => rfl]
    rwa [found_left, within.found, found_entered] at h

/-- The handlers called are those that the steps say. -/
theorem Course.calls (course : Course run history after) :
    after.latestCalls.reverse =
      run.latestCalls.reverse ++ history.flatMap InterruptStep.calls := by
  induction course with
  | done run => simp
  | plain effect rest ih => simp [ih, effect.calls false, InterruptStep.calls]
  | critical body answers within rest inner ih =>
    simp only [ih, inner, left, entered, List.flatMap_append, List.flatMap_cons, List.append_assoc]
    rfl

/-- **The handler registered last is the one that is called.** Any run of operations from a new
table over any controller, with critical sections in each other, completes as long as the controller
meets no fault. Then its steps are all its operations; each is answered from what the steps before
it left registered, so a dispatch is answered with the handler, the context and the priority of the
latest registration on its line that succeeded, unless a removal came after it, and calls that
handler once; these are all calls. In the end each line has the descriptor that the steps left
there, which carries that line, and dispatching it would be answered from it. A line beyond the
table is refused by a registration and ignored by a removal; in any table both leave every
descriptor, the controller and the saved state alone. -/
theorem handlers_last_registered (controller : κ) (journal : Journal)
    (operations : List (InterruptOperation κ η α)) :
    let start : InterruptRun κ η := { table := .create controller journal }
    (∀ Ready : κ → Prop, Faultless Ready → Ready controller →
      (∀ part ∈ InterruptOperation.partsAll operations, part.Keeps Ready) →
      ∃ answers after, start.performAll operations = (.ok answers, after)) ∧
    (∀ answers after, start.performAll operations = (.ok answers, after) →
      let history := InterruptOperation.stepsAll operations answers
      let registered := registrations fun _ => (none : Option (Descriptor η))
      history.map InterruptStep.operation = InterruptOperation.partsAll operations ∧
      Along (fun before step => step.AnsweredFrom (registered before)) history ∧
      after.latestCalls.reverse = history.flatMap InterruptStep.calls ∧
      ∀ line, after.table.descriptor? line = registered history line ∧
        (after.table.dispatch line).1 = .of (registered history line) ∧
        ∀ descriptor ∈ registered history line, descriptor.line = line) ∧
    (∀ (table : InterruptTable κ η) line, interruptLines ≤ line →
      (∀ handler context priority,
        table.register line handler context priority = (.error (.outOfRange line), table)) ∧
      (table.remove line).descriptors = table.descriptors ∧
      (table.remove line).controller = table.controller ∧
      (table.remove line).saved = table.saved) := by
  refine ⟨fun Ready faultless ready keeps => ?_, fun answers after performed => ?_,
    fun table line h => ⟨table.register_of_le h, ?_⟩⟩
  · let start : InterruptRun κ η := { table := .create controller journal }
    have hstart : Ready start.table.controller := ready
    obtain ⟨answers, after, hperformed, -⟩ := performAll_ready faultless hstart operations keeps
    exact ⟨answers, after, hperformed⟩
  · obtain ⟨course, hparts⟩ := course_performAll operations performed
    have hfresh : InterruptRun.found ⟨.create controller journal, 0, []⟩ =
        fun _ => (none : Option (Descriptor η)) :=
      funext (InterruptTable.descriptor?_create controller journal)
    have hfound := course.found
    have hanswered := course.answeredFrom
    rw [hfresh] at hfound hanswered
    refine ⟨hparts, hanswered, course.calls, fun line => ⟨congrFun hfound line, ?_, ?_⟩⟩
    · obtain ⟨journal, hdispatch⟩ := after.table.dispatch_eq line
      rw [hdispatch, ← hfound]
      rfl
    · exact line_of_registrations (fun line d hd => (Option.not_mem_none d hd).elim) _ line
  · rw [InterruptTable.remove_of_le h]
    exact ⟨rfl, rfl, rfl⟩

/-- A handler that is replaced inside of a critical section, one that is removed in a section within
that one, and two lines beyond the table: the replacement is called, and nothing else. -/
theorem handlers_last_registered_replaced :
    let operations : List (InterruptOperation MaskArray Nat Unit) :=
      [.register 5 1 0x1 0, .register 7 1 0x2 0,
        .critical [.register 5 2 0xBEEF 3, .critical [.remove 7, .remove 999], .dispatch 7],
        .register 256 1 0 0, .dispatch 5]
    let start : InterruptRun MaskArray Nat := { table := .create (.create 8 true) .empty }
    ∃ answers after, start.performAll operations = (.ok answers, after) ∧
      after.latestCalls.reverse = [(2, 0xBEEF)] ∧
      (after.table.dispatch 5).1 = .handled 2 0xBEEF 3 ∧
      (after.table.dispatch 7).1 = .noHandler := by
  intro operations start
  have hkeeps : ∀ part ∈ InterruptOperation.partsAll operations, part.Keeps MaskBits.Ready := by
    simp [operations, InterruptOperation.partsAll, InterruptOperation.parts,
      InterruptOperation.Keeps]
  obtain ⟨completes, answered, -⟩ := handlers_last_registered (.create 8 true) .empty operations
  obtain ⟨answers, after, hperformed⟩ := completes _ MaskBits.faultless trivial hkeeps
  obtain ⟨-, -, hcalls, hlines⟩ := answered answers after hperformed
  have hanswers : (start.performAll operations).1.toOption.getD [] = answers := by
    rw [hperformed]
    rfl
  let history := InterruptOperation.stepsAll operations
    ((start.performAll operations).1.toOption.getD [])
  have hcalled : history.flatMap InterruptStep.calls = [(2, 0xBEEF)] := by decide +kernel
  have hfive : registrations (fun _ => none) history 5 = some ⟨5, 2, 0xBEEF, 3⟩ := by decide +kernel
  have hseven : registrations (fun _ => none) history 7 = none := by decide +kernel
  have hhistory : history = InterruptOperation.stepsAll operations answers :=
    congrArg (InterruptOperation.stepsAll operations) hanswers
  rw [hhistory] at hcalled hfive hseven
  refine ⟨answers, after, hperformed, hcalls.trans hcalled, ?_, ?_⟩
  · rw [(hlines 5).2.1, hfive]
    rfl
  · rw [(hlines 7).2.1, hseven]
    rfl

end InterruptRun

end Firmware
