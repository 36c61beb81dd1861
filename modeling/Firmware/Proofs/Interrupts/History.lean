/-
  Firmware: the history of a run of interrupt operations. A run that completes is a course of
  steps, in which those of a critical section come before the section itself. Whatever concerns
  runs is proved along their courses: of one operation, of one section around a course, and so of
  every tree of operations. A caller that decides by the answers so far has carried out such a
  tree as well, once it is done.
-/
import Firmware.Interrupts.Operation
import Firmware.Proofs.Interrupts.Table

namespace Firmware

variable {κ η α : Type}

/-- An operation that was carried out, its answer and whether interrupts were taken after it. -/
structure InterruptStep (κ η α : Type) where
  operation : InterruptOperation κ η α
  answer : InterruptAnswer η α
  enabled : Bool

namespace InterruptOperation

/-- What a critical section runs. -/
def body? : InterruptOperation κ η α → Option (List (InterruptOperation κ η α))
  | .critical body => some body
  | _ => none

/-- The line that an operation unmasks or masks, and which of the two. -/
def masks? : InterruptOperation κ η α → Option (Nat × Bool)
  | .enable line => some (line, false)
  | .disable line => some (line, true)
  | _ => none

mutual

/-- An operation behind all those inside of it, in the order in which they are completed. -/
def parts : InterruptOperation κ η α → List (InterruptOperation κ η α)
  | .critical body => partsAll body ++ [.critical body]
  | operation => [operation]

/-- Operations, each behind all those inside of it. -/
def partsAll : List (InterruptOperation κ η α) → List (InterruptOperation κ η α)
  | [] => []
  | operation :: rest => operation.parts ++ partsAll rest

end

mutual

/-- The steps of an operation with its answer. -/
def steps : InterruptOperation κ η α → InterruptAnswer η α → Bool → List (InterruptStep κ η α)
  | .critical body, .critical answers, enabled =>
    stepsAll body answers ++ [⟨.critical body, .critical answers, enabled⟩]
  | operation, answer, enabled => [⟨operation, answer, enabled⟩]

/-- The steps of operations with their answers, those inside of critical sections included. -/
def stepsAll : List (InterruptOperation κ η α) → List (InterruptAnswer η α × Bool) →
    List (InterruptStep κ η α)
  | operation :: rest, (answer, enabled) :: answers =>
    operation.steps answer enabled ++ stepsAll rest answers
  | _, _ => []

end

end InterruptOperation

namespace InterruptRun

open InterruptOperation

variable [InterruptController κ]

/-- The run at the start of a critical section. -/
def entered (run : InterruptRun κ η) : InterruptRun κ η :=
  { run with table := run.table.saveAndDisable.2 }

/-- The run behind a critical section that began with `run` and ended with `inside`. -/
def left (run inside : InterruptRun κ η) : InterruptRun κ η :=
  { inside with table := inside.table.restore run.table.saveAndDisable.1 }

/-- Whether interrupts are taken. -/
def enabled (run : InterruptRun κ η) : Bool := InterruptController.enabled run.table.controller

theorem eq_ok_of_isOk {β ρ : Type} {performed : Except PortFault (List β) × ρ}
    (h : performed.1.isOk = true) :
    performed = (.ok (performed.1.toOption.getD []), performed.2) := by
  obtain ⟨fault | answers, after⟩ := performed
  · cases h
  · rfl

theorem perform_critical (run : InterruptRun κ η) (body : List (InterruptOperation κ η α)) :
    run.perform (.critical body) = match run.entered.performAll body with
      | (.ok answers, inside) => (.ok (.critical answers), run.left inside)
      | (.error fault, inside) => (.error fault, { run with table := inside.table }) := by
  have hbody : performAll { run with table := run.table.saveAndDisable.2 } body =
      run.entered.performAll body := rfl
  simp only [perform, InterruptTable.criticalSection, hbody]
  generalize run.entered.performAll body = performed
  obtain ⟨fault | answers, inside⟩ := performed <;> rfl

theorem perform_critical_of_ok {run inside : InterruptRun κ η}
    {body : List (InterruptOperation κ η α)} {answers : List (InterruptAnswer η α × Bool)}
    (h : run.entered.performAll body = (.ok answers, inside)) :
    run.perform (.critical body) = (.ok (.critical answers), run.left inside) := by
  rw [perform_critical, h]

theorem performAll_cons (run : InterruptRun κ η) (operation : InterruptOperation κ η α)
    (rest : List (InterruptOperation κ η α)) :
    run.performAll (operation :: rest) = match run.perform operation with
      | (.error fault, next) => (.error fault, next)
      | (.ok answer, next) => match next.performAll rest with
        | (.ok answers, after) => (.ok ((answer, next.enabled) :: answers), after)
        | (.error fault, after) => (.error fault, after) := rfl

/-! ## One operation -/

/-- What an operation that is no critical section answers and leaves behind. -/
inductive Effect (run : InterruptRun κ η) :
    InterruptOperation κ η α → InterruptAnswer η α → InterruptRun κ η → Prop where
  | registered {line : Nat} (h : line < interruptLines) (handler : η) (context : UInt64)
    (priority : UInt32) (journal : Journal) :
    Effect run (.register line handler context priority) (.result (.ok ()))
      { run with table := { run.table with
        descriptors := run.table.descriptors.set line (some { line, handler, context, priority })
        journal } }
  | notRegistered {line : Nat} (h : interruptLines ≤ line) (handler : η) (context : UInt64)
    (priority : UInt32) :
    Effect run (.register line handler context priority) (.result (.error (.outOfRange line))) run
  | removed (line : Nat) :
    Effect run (.remove line) .done { run with table := run.table.remove line }
  | dispatched (line : Nat) (journal : Journal) :
    Effect run (.dispatch line) (.dispatched (.of (run.table.descriptor? line)))
      { run with
        table := { run.table with journal }
        latestCalls :=
          (Dispatch.of (run.table.descriptor? line)).calls.reverse ++ run.latestCalls }
  | masked {operation : InterruptOperation κ η α} {line : Nat} {mask : Bool}
    {result : Except Error Unit} {controller : κ} (asks : operation.masks? = some (line, mask))
    (h : line < interruptLines)
    (answered : InterruptController.setMasked line mask run.table.controller =
      (.ok result, controller)) (journal : Journal) :
    Effect run operation (.result result)
      { run with table := { run.table with controller, journal } }
  | notMasked {operation : InterruptOperation κ η α} {line : Nat} {mask : Bool}
    (asks : operation.masks? = some (line, mask)) (h : interruptLines ≤ line) (journal : Journal) :
    Effect run operation (.result (.error (.outOfRange line)))
      { run with table := { run.table with journal } }
  | saved :
    Effect run .save (.flags run.table.saveAndDisable.1)
      { run with table := run.table.saveAndDisable.2, lastSave := run.table.saveAndDisable.1 }
  | restored (flags : Option UInt64) :
    Effect run (.restore flags) .done
      { run with table := run.table.restore (flags.getD run.lastSave) }
  | described (line : Nat) :
    Effect run (.descriptor line) (.descriptor (run.table.descriptor? line)) run
  | listed : Effect run .registeredLines (.lines run.table.registeredLines) run
  | acted {act : κ → Except PortFault α × κ} {answer : α} {controller : κ}
    (answered : act run.table.controller = (.ok answer, controller)) :
    Effect run (.controller act) (.controller answer)
      { run with table := { run.table with controller } }

theorem effect_mask {run next : InterruptRun κ η} {operation : InterruptOperation κ η α}
    {answer : InterruptAnswer η α} {line : Nat} {mask : Bool} (done : InterruptNote)
    (asks : operation.masks? = some (line, mask))
    (performed : run.on .result (run.table.mask line mask done) = (.ok answer, next)) :
    Effect run operation answer next := by
  by_cases h : line < interruptLines
  · cases hanswered : InterruptController.setMasked line mask run.table.controller with
    | mk result controller =>
      obtain ⟨journal, hmask⟩ := InterruptTable.mask_of_lt h hanswered done
      rw [hmask] at performed
      cases result with
      | error fault => cases performed
      | ok result =>
        obtain ⟨⟨⟩, rfl⟩ := Prod.mk.inj performed
        exact .masked asks h hanswered journal
  · rw [InterruptTable.mask_of_le (Nat.not_lt.mp h)] at performed
    obtain ⟨⟨⟩, rfl⟩ := Prod.mk.inj performed
    exact .notMasked asks (Nat.not_lt.mp h) _

theorem effect_perform {run next : InterruptRun κ η} {operation : InterruptOperation κ η α}
    {answer : InterruptAnswer η α} (single : operation.body? = none)
    (performed : run.perform operation = (.ok answer, next)) :
    Effect run operation answer next := by
  cases operation with
  | critical body => cases single
  | register line handler context priority =>
    rw [perform] at performed
    by_cases h : line < interruptLines
    · obtain ⟨journal, hregister⟩ := run.table.register_of_lt h handler context priority
      rw [hregister] at performed
      obtain ⟨⟨⟩, rfl⟩ := Prod.mk.inj performed
      exact .registered h handler context priority journal
    · rw [InterruptTable.register_of_le (Nat.not_lt.mp h)] at performed
      obtain ⟨⟨⟩, rfl⟩ := Prod.mk.inj performed
      exact .notRegistered (Nat.not_lt.mp h) handler context priority
  | remove line =>
    obtain ⟨⟨⟩, rfl⟩ := Prod.mk.inj performed
    exact .removed line
  | dispatch line =>
    rw [perform] at performed
    obtain ⟨journal, hdispatch⟩ := run.table.dispatch_eq line
    rw [hdispatch] at performed
    obtain ⟨⟨⟩, rfl⟩ := Prod.mk.inj performed
    exact .dispatched line journal
  | enable line => exact effect_mask (.enabled line) rfl performed
  | disable line => exact effect_mask (.disabled line) rfl performed
  | save =>
    obtain ⟨⟨⟩, rfl⟩ := Prod.mk.inj performed
    exact .saved
  | restore flags =>
    obtain ⟨⟨⟩, rfl⟩ := Prod.mk.inj performed
    exact .restored flags
  | descriptor line =>
    obtain ⟨⟨⟩, rfl⟩ := Prod.mk.inj performed
    exact .described line
  | registeredLines =>
    obtain ⟨⟨⟩, rfl⟩ := Prod.mk.inj performed
    exact .listed
  | controller act =>
    rw [perform] at performed
    generalize hanswered : act run.table.controller = answered at performed
    obtain ⟨fault | a, controller⟩ := answered
    · cases performed
    · obtain ⟨⟨⟩, rfl⟩ := Prod.mk.inj performed
      exact .acted hanswered

/-! ## Courses -/

/-- The steps between two runs. -/
inductive Course : InterruptRun κ η → List (InterruptStep κ η α) → InterruptRun κ η → Prop where
  | done (run : InterruptRun κ η) : Course run [] run
  | plain {run next after : InterruptRun κ η} {operation : InterruptOperation κ η α}
    {answer : InterruptAnswer η α} {history : List (InterruptStep κ η α)}
    (effect : Effect run operation answer next) (rest : Course next history after) :
    Course run (⟨operation, answer, next.enabled⟩ :: history) after
  | critical {run inside after : InterruptRun κ η} {inner history : List (InterruptStep κ η α)}
    (body : List (InterruptOperation κ η α)) (answers : List (InterruptAnswer η α × Bool))
    (within : Course run.entered inner inside) (rest : Course (run.left inside) history after) :
    Course run (inner ++ ⟨.critical body, .critical answers, (run.left inside).enabled⟩ :: history)
      after

theorem Course.append {run next after : InterruptRun κ η}
    {first second : List (InterruptStep κ η α)} (h : Course run first next)
    (h' : Course next second after) : Course run (first ++ second) after := by
  induction h with
  | done run => exact h'
  | plain effect rest ih => exact .plain effect (ih h')
  | critical body answers within rest _ ih =>
    rw [List.append_assoc]
    exact .critical body answers within (ih h')

mutual

theorem course_perform {run next : InterruptRun κ η} {answer : InterruptAnswer η α} :
    ∀ operation : InterruptOperation κ η α, run.perform operation = (.ok answer, next) →
      Course run (operation.steps answer next.enabled) next ∧
      (operation.steps answer next.enabled).map InterruptStep.operation = operation.parts
  | .critical body, performed => by
    rw [perform_critical] at performed
    cases hbody : run.entered.performAll body with
    | mk result inside =>
      rw [hbody] at performed
      cases result with
      | error fault => cases performed
      | ok answers =>
        obtain ⟨⟨⟩, rfl⟩ := Prod.mk.inj performed
        obtain ⟨hcourse, hparts⟩ := course_performAll body hbody
        refine ⟨.critical body answers hcourse (.done _), ?_⟩
        simp only [steps, parts, List.map_append, List.map_cons, List.map_nil, hparts]
  | .register .., performed | .remove _, performed | .dispatch _, performed
  | .enable _, performed | .disable _, performed | .save, performed | .restore _, performed
  | .descriptor _, performed | .registeredLines, performed | .controller _, performed =>
    ⟨.plain (effect_perform rfl performed) (.done _), rfl⟩

/-- A run that completes is the course of its steps, which are all its operations. -/
theorem course_performAll {run after : InterruptRun κ η}
    {answers : List (InterruptAnswer η α × Bool)} :
    ∀ operations : List (InterruptOperation κ η α),
      run.performAll operations = (.ok answers, after) →
      Course run (stepsAll operations answers) after ∧
      (stepsAll operations answers).map InterruptStep.operation = partsAll operations
  | [], performed => by
    obtain ⟨⟨⟩, rfl⟩ := Prod.mk.inj performed
    exact ⟨.done _, rfl⟩
  | operation :: rest, performed => by
    rw [performAll_cons] at performed
    cases hfirst : run.perform operation with
    | mk result next =>
      rw [hfirst] at performed
      cases result with
      | error fault => cases performed
      | ok answer =>
        dsimp only at performed
        cases hrest : next.performAll rest with
        | mk result last =>
          rw [hrest] at performed
          cases result with
          | error fault => cases performed
          | ok others =>
            obtain ⟨⟨⟩, rfl⟩ := Prod.mk.inj performed
            obtain ⟨hcourse, hparts⟩ := course_perform operation hfirst
            obtain ⟨hcourse', hparts'⟩ := course_performAll rest hrest
            refine ⟨hcourse.append hcourse', ?_⟩
            simp only [stepsAll, partsAll, List.map_append, hparts, hparts']

end

end InterruptRun

end Firmware
