/-
  Firmware: hosts that do something else between looks at a status. What the relax hook works on
  may be anything, with the registers next to it; as long as it leaves these alone, no run of a
  controller can tell it from the hook that does nothing, and no wait can whose condition it does
  not influence. `hook_unnoticed` states both.
-/
import Firmware.Proofs.I2c.TransferAccesses

namespace Firmware

variable {σ τ : Type}

/-! ## Waiting -/

/-- A condition that goes by what is seen of a state, and a hook that changes nothing of that. -/
structure Uninfluenced (seen : σ → τ) (condition : σ → Bool × σ) (relax : σ → σ) : Prop where
  condition {s s'} : seen s = seen s' →
    (condition s).1 = (condition s').1 ∧ seen (condition s).2 = seen (condition s').2
  relax s : seen (relax s) = seen s

theorem pollFrom_uninfluenced {seen : σ → τ} {condition : σ → Bool × σ} {relax : σ → σ}
    (h : Uninfluenced seen condition relax) (remaining attempt : Nat) {s s' : σ}
    (same : seen s = seen s') :
    let hooked := pollFrom condition relax remaining attempt s
    let spun := pollFrom condition id remaining attempt s'
    hooked.1 = spun.1 ∧ seen hooked.2 = seen spun.2 := by
  induction remaining generalizing attempt s s' with
  | zero => exact ⟨rfl, same⟩
  | succ remaining ih =>
    obtain ⟨holds, left⟩ := h.condition same
    simp only [pollFrom]
    generalize condition s = evaluated at holds left ⊢
    generalize condition s' = evaluated' at holds left ⊢
    obtain ⟨answer, s₁⟩ := evaluated
    obtain ⟨answer', s₁'⟩ := evaluated'
    obtain rfl : answer = answer' := holds
    cases answer with
    | true => exact ⟨rfl, left⟩
    | false => exact ih (attempt + 1) ((h.relax s₁).trans left)

/-! ## Hardware seen through a function -/

/-- Registers beside whatever else a relax hook works on. -/
def Hardware.beside (registers : Registers σ) (relax : σ × τ → σ × τ) : Hardware (σ × τ) where
  toRegisters := registers.within (·.1) fun s pair => (s, pair.2)
  relax := relax

/-- Other hardware, in which the states are those of this one seen through a function. -/
structure Hardware.SeenAs (first : Hardware σ) (second : Hardware τ) (f : σ → τ) : Prop where
  read address s :
    second.read address (f s) = ((first.read address s).1, f (first.read address s).2)
  write address word s : second.write address word (f s) = f (first.write address word s)
  relax s : second.relax (f s) = f (first.relax s)

/-- The same record over states that are seen through a function. -/
def Recorded.map (f : σ → τ) (r : Recorded σ) : Recorded τ where
  state := f r.state
  latestFirst := r.latestFirst

namespace Hardware.SeenAs

variable {first : Hardware σ} {second : Hardware τ} {f : σ → τ}

theorem recorded (seen : first.SeenAs second f) :
    first.recorded.SeenAs second.recorded (Recorded.map f) where
  read address r := by
    simp only [Hardware.recorded, Registers.recorded, Recorded.map, seen.read]
  write address word r := by
    simp only [Hardware.recorded, Registers.recorded, Recorded.map, seen.write]
  relax r := by
    simp only [Hardware.recorded, Recorded.map, seen.relax]

theorem agrees (seen : first.SeenAs second f) (base : UInt64) :
    I2c.Agrees (first.window base) (second.window base) (fun s t => f s = t) :=
  .ofView base seen.read seen.write seen.relax

end Hardware.SeenAs

/-- A hook that leaves the registers alone does not show in them. -/
theorem Hardware.beside_seenAs (registers : Registers σ) {relax : σ × τ → σ × τ}
    (untouched : ∀ s, (relax s).1 = s.1) :
    (beside registers relax).SeenAs (spinning registers) Prod.fst where
  read _ _ := rfl
  write _ _ _ := rfl
  relax s := (untouched s).symm

namespace I2c.Controller

variable {first : Hardware σ} {second : Hardware τ} {f : σ → τ}

theorem readRegisterAt_mapBus (seen : first.SeenAs second f) (offset : UInt64)
    (c : Controller σ) : (c.mapBus f).readRegisterAt second offset =
      ((c.readRegisterAt first offset).1, (c.readRegisterAt first offset).2.mapBus f) := by
  simp only [readRegisterAt, window, Hardware.window, Registers.window, mapBus, seen.read]

theorem dumpRegisters_mapBus (seen : first.SeenAs second f) (c : Controller σ) :
    Console.dumpRegisters second (c.mapBus f) =
      ((Console.dumpRegisters first c).1, (Console.dumpRegisters first c).2.mapBus f) := by
  simp only [Console.dumpRegisters, readRegisterAt_mapBus seen]
  rfl

theorem perform_mapBus (seen : first.SeenAs second f) (operation : Operation) (c : Controller σ) :
    (c.mapBus f).perform second operation =
      ((c.perform first operation).1, (c.perform first operation).2.mapBus f) := by
  cases hraw : operation.isRaw with
  | false => exact (perform_conducted hraw).mapBus (seen.agrees c.config.baseAddress)
  | true =>
    -- what answers registers as they read sees all their bits
    cases operation with
    | readRegisterAt offset => simp only [perform, readRegisterAt_mapBus seen]
    | dumpRegisters => simp only [perform, dumpRegisters_mapBus seen]
    | command command =>
      cases command with
      | registers => simp only [perform, Console.Command.run, dumpRegisters_mapBus seen]
      | _ => cases hraw
    | _ => cases hraw

theorem run_mapBus (seen : first.SeenAs second f) (operations : List Operation)
    (c : Controller σ) : (c.mapBus f).run second operations =
      ((c.run first operations).1, (c.run first operations).2.mapBus f) := by
  induction operations generalizing c with
  | nil => rfl
  | cons operation rest ih => simp only [run, perform_mapBus seen, ih]

/-- **A relax hook that leaves the registers alone goes unnoticed.** On any registers, with any hook
that does not change them, every run of a controller answers as it does with the hook that does
nothing, received buffers included; it counts and notes the same, makes the same accesses with the
same values in the same order, and leaves the registers in the same state. Likewise a wait comes to
the same, and leaves the same to be seen, if its condition, whatever it changes, goes by nothing
that the hook changes. -/
theorem hook_unnoticed {ω ρ : Type} (registers : Registers σ) {relax : σ × τ → σ × τ}
    (untouched : ∀ s, (relax s).1 = s.1) :
    (∀ (operations : List Operation) (c : Controller (σ × τ)),
      let d := c.mapBus Prod.fst
      let hook := Hardware.beside registers relax
      let spin := Hardware.spinning registers
      let hooked := c.run hook operations
      let spun := d.run spin operations
      hooked.1 = spun.1 ∧ hooked.2.statistics = spun.2.statistics ∧
      hooked.2.journal = spun.2.journal ∧ hooked.2.bus.1 = spun.2.bus ∧
      (c.recorded.run hook.recorded operations).2.bus.accesses =
        (d.recorded.run spin.recorded operations).2.bus.accesses) ∧
    ∀ (seen : ω → ρ) (condition : ω → Bool × ω) (relax : ω → ω),
      Uninfluenced seen condition relax → ∀ (budget : Nat) (s : ω),
      let hooked := pollUntil budget condition relax s
      let spun := pollUntil budget condition id s
      hooked.1 = spun.1 ∧ seen hooked.2 = seen spun.2 := by
  have hseen := Hardware.beside_seenAs registers untouched
  refine ⟨fun operations c => ?_, fun seen condition relax h budget s => ?_⟩
  · have hrun := run_mapBus hseen operations c
    have hrecorded := run_mapBus hseen.recorded operations c.recorded
    intro d hook spin hooked spun
    have hspun : spun = (hooked.1, hooked.2.mapBus Prod.fst) := hrun
    rw [hspun]
    refine ⟨rfl, rfl, rfl, rfl, ?_⟩
    exact (congrArg (fun recorded => recorded.2.bus.accesses) hrecorded).symm
  · exact pollFrom_uninfluenced h budget 1 rfl

/-- Hooks that count their calls: beside a bus that is always held, where a write is tried twice and
gives the hook six calls, and beside a condition that counts its evaluations and holds of the third
one. -/
theorem hook_unnoticed_counting :
    let registers : Registers Unit := { read := fun _ s => (busyBit, s), write := fun _ _ s => s }
    let relax : Unit × Nat → Unit × Nat := fun s => (s.1, s.2 + 1)
    let condition : Nat × Nat → Bool × (Nat × Nat) := fun s => (s.1 = 2, s.1 + 1, s.2)
    let count : Nat × Nat → Nat × Nat := fun s => (s.1, s.2 + 1)
    let operations : List Operation := [.sendWithRetries 0x50 [1] 2]
    let c : Controller (Unit × Nat) := .create { timeoutBudget := 3 } ((), 0)
    let hooked := c.run (Hardware.beside registers relax) operations
    hooked.2.bus.2 = 6 ∧
      hooked.1 = ((c.mapBus Prod.fst).run (Hardware.spinning registers) operations).1 ∧
      (pollUntil 5 condition count (0, 0)).2 = (3, 2) ∧
      (pollUntil 5 condition count (0, 0)).1 = (pollUntil 5 condition id (0, 0)).1 := by
  intro registers relax condition count operations c hooked
  have untouched : ∀ s, (relax s).1 = s.1 := fun _ => rfl
  obtain ⟨hruns, hwaits⟩ := hook_unnoticed (ω := Nat × Nat) (ρ := Nat) registers untouched
  refine ⟨by decide +kernel, (hruns operations c).1, by decide +kernel, ?_⟩
  have huninfluenced : Uninfluenced Prod.fst condition count :=
    { condition := fun {s s'} same => by simp only [condition, same, and_self]
      relax := fun _ => rfl }
  exact (hwaits Prod.fst condition count huninfluenced 5 (0, 0)).1

end I2c.Controller

end Firmware
