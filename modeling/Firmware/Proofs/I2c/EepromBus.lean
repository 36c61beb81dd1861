/-
  Firmware: the controller on a simulated bus. Beside whatever else its relax hook works on, as
  long as the hook leaves the simulator alone, the engine makes the simulator behave as a bus of
  EEPROMs: a transaction waits for the bus, is acknowledged or not, and when it is, writes or
  reads the one peripheral that it names.
-/
import Firmware.Proofs.I2c.Controller
import Firmware.Proofs.I2c.Hosted
import Firmware.Proofs.I2c.SimulatedTransfer

namespace Firmware.I2c

variable {τ : Type}

namespace Controller

open Simulator in
/-- **The engine on a simulated bus is a bus of EEPROMs.** A controller at the base of a simulator
in any reachable state, with any relax hook that leaves the simulator alone, runs any
transaction in one of three ways, each given with the whole state of the simulator after it:
the bus is held too long, the opening byte is not acknowledged, or the payload is delivered to
the peripheral at the address and to no other. -/
theorem execute_on_eeproms {relax : Simulator × τ → Simulator × τ}
    (harmless : ∀ s, (relax s).1 = s.1) (c : Controller (Simulator × τ))
    (reachable : Reachable c.config.baseAddress c.bus.1) (t : Transaction) :
    let sim := c.bus.1
    let result := (c.execute (hosted relax) t).1
    let payload := (c.execute (hosted relax) t).2.1
    let c' := (c.execute (hosted relax) t).2.2
    (t.budget ≤ sim.heldReads →
      result = .error .timeout ∧ payload = t.payload ∧
      c'.statistics = c.statistics.count (.error .busFree) ∧
      c'.statistics.lastFailure = some .busFree ∧
      c'.bus.1 = { sim with
        statusReads := sim.statusReads + t.budget,
        heldReads := sim.heldReads - t.budget }) ∧
    (sim.heldReads < t.budget →
      sim.peripheral? t.address.value = none ∨ 0 < sim.nacks ∨ sim.stalled = true →
      result = .error .timeout ∧ payload = t.payload ∧
      c'.statistics = c.statistics.count (.error .addressPhase) ∧
      c'.statistics.lastFailure = some .addressPhase ∧
      c'.bus.1 = { sim with
        statusReads := sim.statusReads + sim.heldReads + 1 + t.budget, heldReads := 0,
        nacks := if (sim.peripheral? t.address.value).isSome then sim.nacks - 1 else sim.nacks,
        starts := sim.starts + 1, stops := sim.stops + 1, done := false, state := .idle,
        lastData := t.opening.toUInt32,
        latestDataWrites := t.opening :: sim.latestDataWrites }) ∧
    (∀ p, sim.heldReads < t.budget → sim.peripheral? t.address.value = some p →
      sim.nacks = 0 → sim.stalled = false →
      result = .ok () ∧ payload = (t.payload.deliver p).1 ∧
      c'.statistics = c.statistics.count (.ok ()) ∧
      c'.bus.1 = { sim.place t.address.value (some (t.payload.deliver p).2) with
        statusReads := sim.statusReads + sim.heldReads + 2 + t.payload.length, heldReads := 0,
        starts := sim.starts + 1, stops := sim.stops + 1, done := false, state := .idle,
        lastData := ((t.payload.moved p).getLastD t.opening).toUInt32,
        latestDataWrites := t.payload.sent.reverse ++ t.opening :: sim.latestDataWrites }) := by
  have sound := reachable.sound
  obtain ⟨hresult, hpayload, hseen⟩ := execute_seen harmless c t
  have hstatistics : (c.execute (hosted relax) t).2.2.statistics =
    (c.seen.execute alone t).2.2.statistics := congrArg Controller.statistics hseen
  have hbus : (c.execute (hosted relax) t).2.2.bus.1 = (c.seen.execute alone t).2.2.bus :=
    congrArg Controller.bus hseen
  dsimp only
  rw [hresult, hpayload, hstatistics, hbus]
  refine ⟨fun hheld => ?_, fun hfree hrefused => ?_, fun p hfree hp hnacks hstalled => ?_⟩
  · obtain ⟨journal, h⟩ := execute_of_run (c := c.seen) alone
      (run_held sound.base_eq t hheld)
    rw [h]
    exact ⟨rfl, rfl, rfl, rfl, rfl⟩
  · obtain ⟨journal, h⟩ := execute_of_run (c := c.seen) alone
      (run_refused sound t hfree hrefused)
    rw [h]
    exact ⟨rfl, rfl, rfl, rfl, rfl⟩
  · obtain ⟨journal, h⟩ := execute_of_run (c := c.seen) alone
      (run_delivered sound t hfree hp hnacks hstalled)
    rw [h]
    exact ⟨rfl, rfl, rfl, rfl⟩

open Simulator in
/-- The three ways on one simulator, with a peripheral at `0x50` and three held reads: a budget
that is too small, an address that nobody has, and a write around the end of the memory. -/
theorem execute_on_eeproms_held_refused_delivered :
    let sim := (Handling.holdBus 3).applied
      ((Handling.attach 0x50).applied (Simulator.create defaultBase))
    let c := Controller.create {} (sim, ())
    let held : Transaction :=
      { address := ⟨0x50, by decide⟩, payload := .write [0xFF, 7, 9], budget := 2 }
    let absent : Transaction :=
      { address := ⟨0x51, by decide⟩, payload := .write [0xFF, 7, 9], budget := 4 }
    let present : Transaction :=
      { address := ⟨0x50, by decide⟩, payload := .write [0xFF, 7, 9], budget := 4 }
    Reachable c.config.baseAddress c.bus.1 ∧
    (c.execute (hosted id) held).1 = .error .timeout ∧
    (c.execute (hosted id) held).2.2.bus.1.heldReads = 1 ∧
    (c.execute (hosted id) absent).2.2.statistics.lastFailure = some .addressPhase ∧
    (c.execute (hosted id) absent).2.2.bus.1.statusReads = 3 + 1 + 4 ∧
    (c.execute (hosted id) present).1 = .ok () ∧
    (c.execute (hosted id) present).2.2.bus.1.statusReads = 3 + 2 + 3 ∧
    (c.execute (hosted id) present).2.2.bus.1.dataWrites = [0xA0, 0xFF, 7, 9] := by
  intro sim c held absent present
  have reachable : Reachable c.config.baseAddress c.bus.1 :=
    .handle (.holdBus 3) (.handle (.attach 0x50) .create)
  have attached : c.bus.1.peripheral? present.address.value = some {} :=
    peripheral?_place (.create defaultBase) 0x50 _
  have harmless (s : Simulator × Unit) : (id s).1 = s.1 := rfl
  have ways (t : Transaction) := execute_on_eeproms harmless c reachable t
  obtain ⟨hheld, -, -, -, hheldBus⟩ := (ways held).1 (by decide)
  obtain ⟨-, -, -, habsent, habsentBus⟩ := (ways absent).2.1 (by decide) (.inl rfl)
  obtain ⟨hpresent, -, -, hpresentBus⟩ := (ways present).2.2 {} (by decide) attached rfl rfl
  refine ⟨reachable, hheld, ?_, habsent, ?_, hpresent, ?_, ?_⟩
  · rw [hheldBus]
    rfl
  · rw [habsentBus]
    rfl
  · rw [hpresentBus]
    rfl
  · rw [dataWrites, hpresentBus]
    rfl

end Controller

end Firmware.I2c
