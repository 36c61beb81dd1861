/-
  Firmware: controllers that count how often their global state is captured and how often it is
  written back. Counting changes neither what a run of operations answers nor where it ends.
-/
import Firmware.Proofs.Interrupts.History

namespace Firmware

variable {κ η α β : Type}

/-- A controller and how often its global state was captured and written back. -/
structure Counted (κ : Type) where
  controller : κ
  saves : Nat := 0
  restores : Nat := 0

instance [InterruptController κ] : InterruptController (Counted κ) where
  setMasked line masked c :=
    let (result, controller) := InterruptController.setMasked line masked c.controller
    (result, { c with controller })
  saveAndDisable c :=
    let (word, controller) := InterruptController.saveAndDisable c.controller
    (word, { c with controller, saves := c.saves + 1 })
  restore word c :=
    { c with
      controller := InterruptController.restore word c.controller
      restores := c.restores + 1 }
  enabled c := InterruptController.enabled c.controller

theorem Counted.setMasked_eq [InterruptController κ] {line : Nat} {masked : Bool} {c : Counted κ}
    {result : Except PortFault (Except Error Unit)} {controller : κ}
    (answered : InterruptController.setMasked line masked c.controller = (result, controller)) :
    InterruptController.setMasked line masked c = (result, { c with controller }) := by
  show (match InterruptController.setMasked line masked c.controller with
    | (result, controller) => (result, { c with controller })) = _
  rw [answered]

namespace InterruptOperation

mutual

/-- The same operation on a controller that counts. -/
def counted : InterruptOperation κ η α → InterruptOperation (Counted κ) η α
  | .register line handler context priority => .register line handler context priority
  | .remove line => .remove line
  | .dispatch line => .dispatch line
  | .enable line => .enable line
  | .disable line => .disable line
  | .save => .save
  | .restore flags => .restore flags
  | .descriptor line => .descriptor line
  | .registeredLines => .registeredLines
  | .controller act => .controller fun c =>
    let (answer, after) := act c.controller
    (answer, { c with controller := after })
  | .critical body => .critical (countedAll body)

/-- The same operations on a controller that counts. -/
def countedAll : List (InterruptOperation κ η α) → List (InterruptOperation (Counted κ) η α)
  | [] => []
  | operation :: rest => operation.counted :: countedAll rest

end

mutual

theorem parts_counted : ∀ operation : InterruptOperation κ η α,
    operation.counted.parts = operation.parts.map counted
  | .critical body => by
    rw [counted, parts, partsAll_counted body, parts, List.map_append]
    rfl
  | .register .. | .remove _ | .dispatch _ | .enable _ | .disable _ | .save | .restore _
  | .descriptor _ | .registeredLines | .controller _ => rfl

theorem partsAll_counted : ∀ operations : List (InterruptOperation κ η α),
    partsAll (countedAll operations) = (partsAll operations).map counted
  | [] => rfl
  | operation :: rest => by
    rw [countedAll, partsAll, parts_counted operation, partsAll_counted rest, partsAll,
      List.map_append]

end

end InterruptOperation

/-- The table over the controller that is counted. -/
def InterruptTable.uncounted (table : InterruptTable (Counted κ) η) : InterruptTable κ η where
  descriptors := table.descriptors
  controller := table.controller.controller
  saved := table.saved
  journal := table.journal

/-- The run over the controller that is counted. -/
def InterruptRun.uncounted (run : InterruptRun (Counted κ) η) : InterruptRun κ η where
  table := run.table.uncounted
  lastSave := run.lastSave
  latestCalls := run.latestCalls

/-- The table over the same controller, counted from now on. -/
def InterruptTable.counting (table : InterruptTable κ η) : InterruptTable (Counted κ) η where
  descriptors := table.descriptors
  controller := { controller := table.controller }
  saved := table.saved
  journal := table.journal

/-- The run over the same controller, counted from now on. -/
def InterruptRun.counting (run : InterruptRun κ η) : InterruptRun (Counted κ) η where
  table := run.table.counting
  lastSave := run.lastSave
  latestCalls := run.latestCalls

theorem InterruptRun.uncounted_counting (run : InterruptRun κ η) : run.counting.uncounted = run :=
  rfl

namespace InterruptTable

variable (table : InterruptTable (Counted κ) η) (line : Nat)

theorem uncounted_register (handler : η) (context : UInt64) (priority : UInt32) :
    table.uncounted.register line handler context priority =
      ((table.register line handler context priority).1,
        (table.register line handler context priority).2.uncounted) := by
  by_cases h : line < interruptLines
  · by_cases live : table.descriptors[line].isSome
    · have live' : table.uncounted.descriptors[line].isSome := live
      simp only [register, dif_pos h, if_pos live, if_pos live']
      rfl
    · have live' : ¬ table.uncounted.descriptors[line].isSome := live
      simp only [register, dif_pos h, if_neg live, if_neg live']
      rfl
  · rw [register_of_le (Nat.not_lt.mp h), register_of_le (Nat.not_lt.mp h)]

theorem uncounted_remove : table.uncounted.remove line = (table.remove line).uncounted := by
  unfold remove
  split <;> rfl

theorem uncounted_dispatch : table.uncounted.dispatch line =
    ((table.dispatch line).1, (table.dispatch line).2.uncounted) := by
  unfold dispatch
  rw [show table.uncounted.descriptor? line = table.descriptor? line from rfl]
  cases table.descriptor? line <;> rfl

variable [InterruptController κ]

theorem uncounted_mask (masked : Bool) (done : InterruptNote) :
    table.uncounted.mask line masked done =
      ((table.mask line masked done).1, (table.mask line masked done).2.uncounted) := by
  by_cases h : line < interruptLines
  · cases hbare : InterruptController.setMasked line masked table.controller.controller with
    | mk result controller =>
      have hbare' : InterruptController.setMasked line masked table.uncounted.controller =
          (result, controller) := hbare
      simp only [mask, if_pos h, Counted.setMasked_eq hbare, hbare']
      cases result with
      | error fault => rfl
      | ok result => cases result <;> rfl
  · rw [mask_of_le (Nat.not_lt.mp h), mask_of_le (Nat.not_lt.mp h)]
    rfl

theorem uncounted_saveAndDisable : table.uncounted.saveAndDisable =
    (table.saveAndDisable.1, table.saveAndDisable.2.uncounted) := by
  simp only [saveAndDisable]
  rw [show table.uncounted.saved = table.saved from rfl]
  split <;> rfl

end InterruptTable

namespace InterruptRun

variable [InterruptController κ]

mutual

theorem uncounted_perform (run : InterruptRun (Counted κ) η) :
    ∀ operation : InterruptOperation κ η α, run.uncounted.perform operation =
      ((run.perform operation.counted).1, (run.perform operation.counted).2.uncounted)
  | .register line handler context priority => by
    rw [perform, show run.uncounted.table.register line handler context priority = _ from
      run.table.uncounted_register line handler context priority]
    rfl
  | .remove line => by
    rw [perform, show run.uncounted.table.remove line = _ from run.table.uncounted_remove line]
    rfl
  | .dispatch line => by
    rw [perform, show run.uncounted.table.dispatch line = _ from run.table.uncounted_dispatch line]
    rfl
  | .enable line => by
    rw [perform, show run.uncounted.table.enable line = _ from
      run.table.uncounted_mask line false (.enabled line)]
    rfl
  | .disable line => by
    rw [perform, show run.uncounted.table.disable line = _ from
      run.table.uncounted_mask line true (.disabled line)]
    rfl
  | .save => by
    rw [perform, show run.uncounted.table.saveAndDisable = _ from
      run.table.uncounted_saveAndDisable]
    rfl
  | .restore flags => rfl
  | .descriptor line => rfl
  | .registeredLines => rfl
  | .controller act => rfl
  | .critical body => by
    have hentered : run.uncounted.entered = run.entered.uncounted := by
      simp only [entered, uncounted, InterruptTable.uncounted_saveAndDisable]
    rw [perform_critical, hentered, uncounted_performAll run.entered body,
      InterruptOperation.counted, perform_critical]
    generalize run.entered.performAll (InterruptOperation.countedAll body) = performed
    obtain ⟨fault | answers, inside⟩ := performed <;> rfl

/-- Counting changes neither the answers of a run nor where it ends. -/
theorem uncounted_performAll (run : InterruptRun (Counted κ) η) :
    ∀ operations : List (InterruptOperation κ η α), run.uncounted.performAll operations =
      ((run.performAll (InterruptOperation.countedAll operations)).1,
        (run.performAll (InterruptOperation.countedAll operations)).2.uncounted)
  | [] => rfl
  | operation :: rest => by
    rw [performAll_cons, uncounted_perform run operation, InterruptOperation.countedAll,
      performAll_cons]
    generalize run.perform operation.counted = performed
    obtain ⟨fault | answer, next⟩ := performed
    · rfl
    · dsimp only
      rw [uncounted_performAll next rest]
      generalize next.performAll (InterruptOperation.countedAll rest) = performed
      obtain ⟨fault | answers, after⟩ := performed <;> rfl

end

end InterruptRun

end Firmware
