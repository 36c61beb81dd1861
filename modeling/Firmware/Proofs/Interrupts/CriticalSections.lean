/-
  Firmware: critical sections. Whatever runs inside of one, it gives back the global state that it
  found, since it carries that state itself and does not rely on the one slot of the table. As
  long as nothing inside writes a state of its own, interrupts stay off to its end; and with no
  saves of its own either, there are as many saves as restores, one for each section entered. The
  main result, `critical_section_gives_back`, says so of a PC and of a controller in memory.
-/
import Firmware.Proofs.Interrupts.Controllers

namespace Firmware

variable {κ η α : Type}

namespace InterruptOperation

/-- Whether an operation writes a global state, or may do so since it reaches past the table. -/
def writesState : InterruptOperation κ η α → Bool
  | .restore _ | .controller _ => true
  | _ => false

/-- Whether an operation is a save. -/
def isSave : InterruptOperation κ η α → Bool
  | .save => true
  | _ => false

/-- Whether an operation is a critical section. -/
def isSection : InterruptOperation κ η α → Bool
  | .critical _ => true
  | _ => false

variable (operation : InterruptOperation κ η α)

theorem writesState_counted : operation.counted.writesState = operation.writesState := by
  cases operation <;> rfl

theorem isSave_counted : operation.counted.isSave = operation.isSave := by
  cases operation <;> rfl

theorem isSection_counted : operation.counted.isSection = operation.isSection := by
  cases operation <;> rfl

end InterruptOperation

namespace InterruptRun

open InterruptOperation

variable [InterruptController κ] {run next inside after : InterruptRun κ η}
  {operation : InterruptOperation κ η α} {answer : InterruptAnswer η α}
  {history : List (InterruptStep κ η α)}

theorem perform_critical_ok {body : List (InterruptOperation κ η α)}
    {answers : List (InterruptAnswer η α × Bool)}
    (performed : run.perform (.critical body) = (.ok (.critical answers), after)) :
    ∃ inside, run.entered.performAll body = (.ok answers, inside) ∧ after = run.left inside := by
  rw [perform_critical] at performed
  cases hbody : run.entered.performAll body with
  | mk result inside =>
    rw [hbody] at performed
    cases result with
    | error fault => cases performed
    | ok answers =>
      obtain ⟨⟨⟩, rfl⟩ := Prod.mk.inj performed
      exact ⟨inside, rfl, rfl⟩

theorem Effect.isSection_eq (effect : Effect run operation answer next) :
    operation.isSection = false := by
  cases effect with
  | masked asks | notMasked asks =>
    cases operation with
    | critical body => cases asks
    | _ => rfl
  | _ => rfl

/-! ## The global state -/

section

variable [GlobalState κ]

/-- The word of the global state. -/
def word (run : InterruptRun κ η) : UInt64 := GlobalState.word run.table.controller

theorem word_left (run inside : InterruptRun κ η) : (run.left inside).word = run.word := by
  -- the word written back is the one saved on entry, whatever became of the slot of the table
  show GlobalState.word (InterruptController.restore
    (InterruptController.saveAndDisable run.table.controller).1 inside.table.controller) = _
  rw [GlobalState.saved]
  exact GlobalState.restored ..

theorem enabled_left (run inside : InterruptRun κ η) : (run.left inside).enabled = run.enabled :=
  GlobalState.enabled_congr (word_left run inside)

theorem enabled_entered (run : InterruptRun κ η) : run.entered.enabled = false := by
  show InterruptController.enabled run.table.saveAndDisable.2.controller = false
  rw [InterruptTable.saveAndDisable_controller]
  exact GlobalState.disabled run.table.controller

/-- An operation that writes no state turns no interrupts on. -/
theorem Effect.enabled (effect : Effect run operation answer next)
    (silent : operation.writesState = false) (off : run.enabled = false) :
    next.enabled = false := by
  cases effect with
  | saved => exact enabled_entered run
  | @masked _ line mask result controller asks h answered journal =>
    refine (GlobalState.enabled_congr ?_).trans off
    have hword := GlobalState.word_setMasked line mask run.table.controller
    rwa [answered] at hword
  | removed line =>
    show InterruptController.enabled (run.table.remove line).controller = false
    rw [InterruptTable.remove_controller]
    exact off
  | restored flags | acted answered => cases silent
  | registered h handler context priority journal | notRegistered h handler context priority
  | dispatched line journal | notMasked asks h journal | described line | listed => exact off

/-- Where nothing writes a state, interrupts that are off stay off after every step. -/
theorem Course.off (course : Course run history after)
    (silent : ∀ step ∈ history, step.operation.writesState = false) (off : run.enabled = false) :
    ∀ step ∈ history, step.enabled = false := by
  induction course with
  | done run => nofun
  | plain effect rest ih =>
    have hnext := effect.enabled (silent _ List.mem_cons_self) off
    intro step hmem
    rcases List.mem_cons.mp hmem with rfl | hmem
    · exact hnext
    · exact ih (fun step h => silent step (List.mem_cons_of_mem _ h)) hnext step hmem
  | @critical run inside after inner history body answers within rest hinner ih =>
    -- the body begins with interrupts off by itself; behind the section they are off as they were
    have hleft : (run.left inside).enabled = false := (enabled_left run inside).trans off
    intro step hmem
    rcases List.mem_append.mp hmem with hmem | hmem
    · exact hinner (fun step h => silent step (List.mem_append_left _ h)) (enabled_entered run)
        step hmem
    · rcases List.mem_cons.mp hmem with rfl | hmem
      · exact hleft
      · exact ih (fun step h => silent step (List.mem_append_right _ (List.mem_cons_of_mem _ h)))
          hleft step hmem

end

/-! ## Saves and restores -/

section

variable [CountsStates κ]

/-- How often the global state was captured. -/
def saves (run : InterruptRun κ η) : Nat := CountsStates.saves run.table.controller

/-- How often a global state was written back. -/
def restores (run : InterruptRun κ η) : Nat := CountsStates.restores run.table.controller

theorem counts_entered (run : InterruptRun κ η) :
    run.entered.saves = run.saves + 1 ∧ run.entered.restores = run.restores := by
  simp only [saves, restores, entered, InterruptTable.saveAndDisable_controller]
  exact CountsStates.captured run.table.controller

theorem counts_left (run inside : InterruptRun κ η) :
    (run.left inside).saves = inside.saves ∧
    (run.left inside).restores = inside.restores + 1 :=
  CountsStates.written run.table.saveAndDisable.1 inside.table.controller

/-- An operation that neither saves nor writes a state counts as nothing. -/
theorem Effect.counts (effect : Effect run operation answer next)
    (silent : operation.writesState = false) (saveless : operation.isSave = false) :
    next.saves = run.saves ∧ next.restores = run.restores := by
  cases effect with
  | saved => cases saveless
  | @masked _ line mask result controller asks h answered journal =>
    have hcounts := CountsStates.masked line mask run.table.controller
    rwa [answered] at hcounts
  | removed line =>
    simp only [saves, restores, InterruptTable.remove_controller]
    trivial
  | restored flags | acted answered => cases silent
  | registered h handler context priority journal | notRegistered h handler context priority
  | dispatched line journal | notMasked asks h journal | described line | listed => exact ⟨rfl, rfl⟩

/-- Without saves and restores of its own, a run counts one of each for every section in it. -/
theorem Course.counts (course : Course run history after)
    (plain : ∀ step ∈ history,
      step.operation.writesState = false ∧ step.operation.isSave = false) :
    after.saves = run.saves + history.countP (·.operation.isSection) ∧
    after.restores = run.restores + history.countP (·.operation.isSection) := by
  induction course with
  | done run => exact ⟨rfl, rfl⟩
  | plain effect rest ih =>
    obtain ⟨silent, saveless⟩ := plain _ List.mem_cons_self
    obtain ⟨hsaves, hrestores⟩ := effect.counts silent saveless
    obtain ⟨ihsaves, ihrestores⟩ := ih fun step h => plain step (List.mem_cons_of_mem _ h)
    simp only [List.countP_cons, effect.isSection_eq, Bool.false_eq_true, if_false]
    omega
  | @critical run inside after inner history body answers within rest hinner ih =>
    obtain ⟨hsaves, hrestores⟩ := hinner fun step h => plain step (List.mem_append_left _ h)
    obtain ⟨ihsaves, ihrestores⟩ := ih fun step h =>
      plain step (List.mem_append_right _ (List.mem_cons_of_mem _ h))
    have hentered := counts_entered run
    have hleft := counts_left run inside
    have hsection : (InterruptOperation.critical body).isSection = true := rfl
    simp only [List.countP_append, List.countP_cons, hsection, if_true]
    omega

end

/-! ## One section -/

variable {body : List (InterruptOperation κ η α)} {answers : List (InterruptAnswer η α × Bool)}

theorem word_critical [GlobalState κ]
    (performed : run.perform (.critical body) = (.ok (.critical answers), after)) :
    after.word = run.word := by
  obtain ⟨inside, -, rfl⟩ := perform_critical_ok performed
  exact word_left run inside

theorem off_critical [GlobalState κ]
    (performed : run.perform (.critical body) = (.ok (.critical answers), after))
    (silent : ∀ part ∈ partsAll body, part.writesState = false) :
    ∀ step ∈ stepsAll body answers, step.enabled = false := by
  obtain ⟨inside, hbody, -⟩ := perform_critical_ok performed
  obtain ⟨course, hparts⟩ := course_performAll body hbody
  refine course.off (fun step hmem => silent _ ?_) (enabled_entered run)
  exact hparts ▸ List.mem_map_of_mem hmem

theorem counts_critical [CountsStates κ]
    (performed : run.perform (.critical body) = (.ok (.critical answers), after))
    (plain : ∀ part ∈ partsAll body, part.writesState = false ∧ part.isSave = false) :
    after.saves = run.saves + ((partsAll body).countP isSection + 1) ∧
    after.restores = run.restores + ((partsAll body).countP isSection + 1) := by
  obtain ⟨inside, hbody, rfl⟩ := perform_critical_ok performed
  obtain ⟨course, hparts⟩ := course_performAll body hbody
  obtain ⟨hsaves, hrestores⟩ :=
    course.counts fun step hmem => plain _ (hparts ▸ List.mem_map_of_mem hmem)
  have hentered := counts_entered run
  have hleft := counts_left run inside
  have hsections : (stepsAll body answers).countP (·.operation.isSection) =
      (partsAll body).countP isSection := by
    rw [← hparts, List.countP_map]
    rfl
  omega

/-- A controller that is counted from now on counts the sections of a run that neither saves nor
writes a state past them. -/
theorem counting_critical
    (performed : run.perform (.critical body) = (.ok (.critical answers), after))
    (plain : ∀ part ∈ partsAll body, part.writesState = false ∧ part.isSave = false) :
    ∃ counted, run.counting.perform (.critical (countedAll body)) =
        (.ok (.critical answers), counted) ∧
      counted.uncounted = after ∧
      counted.table.controller.saves = (partsAll body).countP isSection + 1 ∧
      counted.table.controller.restores = (partsAll body).countP isSection + 1 := by
  have hperformed := uncounted_perform run.counting (.critical body)
  rw [uncounted_counting, performed, counted] at hperformed
  generalize hcounted : run.counting.perform (.critical (countedAll body)) = both at hperformed
  obtain ⟨result, after'⟩ := both
  obtain ⟨rfl, rfl⟩ := Prod.mk.inj hperformed
  have hsections : (partsAll (countedAll body)).countP isSection =
      (partsAll body).countP isSection := by
    rw [partsAll_counted, List.countP_map]
    exact List.countP_congr fun part _ => by rw [Function.comp_apply, isSection_counted]
  obtain ⟨hsaves, hrestores⟩ := counts_critical hcounted fun part hmem => by
    rw [partsAll_counted] at hmem
    obtain ⟨operation, hbare, rfl⟩ := List.mem_map.mp hmem
    rw [writesState_counted, isSave_counted]
    exact plain operation hbare
  rw [hsections] at hsaves hrestores
  exact ⟨after', rfl, rfl, hsaves.trans (Nat.zero_add _), hrestores.trans (Nat.zero_add _)⟩

end InterruptRun

open InterruptRun InterruptOperation

/-- **Critical sections give back the global state that they found.** For a PC, whatever its flags
word and its ports, and for a controller in memory, and for any operations run inside of a section
that no fault stops: behind the section the global state is the one before it, bit for bit.
Interrupts are off when a section begins and, if nothing inside writes a state, by a restore or
past the table, after every step of it, whether in a section within or behind one. If there is no
save inside either, as many saves as restores are made, one for every section entered; a
controller in memory is counted for that, which changes no answer and no state. -/
theorem critical_section_gives_back :
    (∀ (run : InterruptRun PcController η) (body : List (InterruptOperation PcController η α))
      (answers : List (InterruptAnswer η α × Bool)) (after : InterruptRun PcController η),
      run.perform (.critical body) = (.ok (.critical answers), after) →
      let sections := (partsAll body).countP isSection + 1
      let found := run.table.controller.flags
      let left := after.table.controller.flags
      left.word = found.word ∧
      (∀ start : InterruptRun PcController η, start.entered.enabled = false) ∧
      ((∀ part ∈ partsAll body, part.writesState = false) →
        ∀ step ∈ stepsAll body answers, step.enabled = false) ∧
      ((∀ part ∈ partsAll body, part.writesState = false ∧ part.isSave = false) →
        left.saves = found.saves + sections ∧ left.restores = found.restores + sections)) ∧
    (∀ (run : InterruptRun MaskArray η) (body : List (InterruptOperation MaskArray η α))
      (answers : List (InterruptAnswer η α × Bool)) (after : InterruptRun MaskArray η),
      run.perform (.critical body) = (.ok (.critical answers), after) →
      let sections := (partsAll body).countP isSection + 1
      after.table.controller.enabled = run.table.controller.enabled ∧
      (∀ start : InterruptRun MaskArray η, start.entered.enabled = false) ∧
      ((∀ part ∈ partsAll body, part.writesState = false) →
        ∀ step ∈ stepsAll body answers, step.enabled = false) ∧
      ((∀ part ∈ partsAll body, part.writesState = false ∧ part.isSave = false) →
        ∃ counted, run.counting.perform (.critical (countedAll body)) =
            (.ok (.critical answers), counted) ∧
          counted.uncounted = after ∧
          counted.table.controller.saves = sections ∧
          counted.table.controller.restores = sections)) := by
  refine ⟨fun run body answers after performed => ?_, fun run body answers after performed => ?_⟩
  · exact ⟨word_critical performed, enabled_entered, off_critical performed,
      counts_critical performed⟩
  · have hword : after.word = run.word := word_critical performed
    exact ⟨GlobalState.enabled_congr hword, enabled_entered, off_critical performed,
      counting_critical performed⟩

/-- Two sections in one another inside of a section, with a handler called between them. -/
def nestedSections (κ : Type) : List (InterruptOperation κ Nat Unit) :=
  [.register 3 1 7 0, .critical [.dispatch 3, .critical [.enable 3]], .remove 300]

/-- Around them, a PC keeps a flags word with more than the interrupt bit in it, a controller in
memory stays on, and each of the two counts three sections. -/
theorem critical_section_gives_back_nested :
    let pc : InterruptRun PcController Nat :=
      { table := .create { ports := { latching := true }, flags := { word := 0x246 } } .empty }
    let memory : InterruptRun MaskArray Nat := { table := .create (.create 8 true) .empty }
    let left := pc.perform (.critical (nestedSections PcController))
    let left' := memory.perform (.critical (nestedSections MaskArray))
    left.1.isOk = true ∧ left.2.table.controller.flags.word = 0x246 ∧
      left.2.table.controller.flags.saves = 3 ∧ left.2.table.controller.flags.restores = 3 ∧
      left'.1.isOk = true ∧ left'.2.table.controller.enabled = true ∧
      ∃ answers, (∀ step ∈ stepsAll (nestedSections MaskArray) answers, step.enabled = false) ∧
        ∃ counted, memory.counting.perform (.critical (countedAll (nestedSections MaskArray))) =
            (.ok (.critical answers), counted) ∧
          counted.table.controller.saves = 3 ∧ counted.table.controller.restores = 3 := by
  intro pc memory left left'
  have hsections : (partsAll (nestedSections PcController)).countP isSection = 2 := by
    decide +kernel
  have hsections' : (partsAll (nestedSections MaskArray)).countP isSection = 2 := by decide +kernel
  have hinside : (pc.entered.performAll (nestedSections PcController)).1.isOk = true := by
    decide +kernel
  have hinside' : (memory.entered.performAll (nestedSections MaskArray)).1.isOk = true := by
    decide +kernel
  have hleft : left = _ := perform_critical_of_ok (eq_ok_of_isOk hinside)
  have hleft' : left' = _ := perform_critical_of_ok (eq_ok_of_isOk hinside')
  obtain ⟨hword, -, -, hcounts⟩ := critical_section_gives_back.1 pc _ _ _ hleft
  obtain ⟨henabled, -, hoff, hcounts'⟩ := critical_section_gives_back.2 memory _ _ _ hleft'
  obtain ⟨hsaves, hrestores⟩ := hcounts (by decide +kernel)
  obtain ⟨counted, hcounted, -, hsaves', hrestores'⟩ := hcounts' (by decide +kernel)
  rw [hsections] at hsaves hrestores
  rw [hsections'] at hsaves' hrestores'
  rw [hleft, hleft']
  exact ⟨rfl, hword, hsaves, hrestores, rfl, henabled, _, hoff (by decide +kernel), counted,
    hcounted, hsaves', hrestores'⟩

end Firmware
