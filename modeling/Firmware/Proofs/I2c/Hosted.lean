/-
  Firmware: a simulator beside a relax hook. Whatever the hook keeps and does, as long as it
  leaves the simulator alone, a controller behaves as it does on the simulator by itself.
-/
import Firmware.I2c.Target
import Firmware.Proofs.I2c.Reachable
import Firmware.Proofs.I2c.Yielding

namespace Firmware.I2c

variable {τ : Type} {relax : Simulator × τ → Simulator × τ}

theorem Simulator.hosted_agrees (harmless : ∀ s, (relax s).1 = s.1) (base : UInt64) :
    Agrees ((hosted relax).window base) (alone.window base) (fun s sim => s.1 = sim) :=
  (Hardware.beside_seenAs registers harmless).agrees base

/-- The simulator that a target is on. -/
def Target.simulator (target : Target (Simulator × τ)) : Simulator := target.controller.bus.1

namespace Controller

open Simulator (hosted hosted_agrees alone)

/-- A controller with the simulator alone. -/
def seen (c : Controller (Simulator × τ)) : Controller Simulator :=
  { config := c.config, bus := c.bus.1, statistics := c.statistics, journal := c.journal }

variable (harmless : ∀ s, (relax s).1 = s.1) (c : Controller (Simulator × τ))

include harmless

theorem execute_seen (t : Transaction) :
    (c.execute (hosted relax) t).1 = (c.seen.execute alone t).1 ∧
      (c.execute (hosted relax) t).2.1 = (c.seen.execute alone t).2.1 ∧
      (c.execute (hosted relax) t).2.2.seen = (c.seen.execute alone t).2.2 := by
  have h : c.seen.execute alone t = _ := execute_mapBus (hosted_agrees harmless _) t
  rw [h]
  exact ⟨rfl, rfl, rfl⟩

theorem exchange_seen (address : UInt8) (payload : Payload) :
    (c.exchange (hosted relax) address payload).1 = (c.seen.exchange alone address payload).1 ∧
      (c.exchange (hosted relax) address payload).2.1 =
        (c.seen.exchange alone address payload).2.1 ∧
      (c.exchange (hosted relax) address payload).2.2.seen =
        (c.seen.exchange alone address payload).2.2 := by
  have h : c.seen.exchange alone address payload = _ :=
    exchange_mapBus (hosted_agrees harmless _) address payload
  rw [h]
  exact ⟨rfl, rfl, rfl⟩

theorem exchangeWithRetries_seen (limit : Nat) (address : UInt8) (payload : Payload) :
    (c.exchangeWithRetries (hosted relax) limit address payload).1 =
        (c.seen.exchangeWithRetries alone limit address payload).1 ∧
      (c.exchangeWithRetries (hosted relax) limit address payload).2.1 =
        (c.seen.exchangeWithRetries alone limit address payload).2.1 ∧
      (c.exchangeWithRetries (hosted relax) limit address payload).2.2.seen =
        (c.seen.exchangeWithRetries alone limit address payload).2.2 := by
  have h : c.seen.exchangeWithRetries alone limit address payload = _ :=
    exchangeWithRetries_mapBus (hosted_agrees harmless _) limit address payload
  rw [h]
  exact ⟨rfl, rfl, rfl⟩

theorem scan_seen :
    (c.scan (hosted relax)).1 = (c.seen.scan alone).1 ∧
      (c.scan (hosted relax)).2.seen = (c.seen.scan alone).2 := by
  have h : c.seen.scan alone = _ := scan_mapBus (hosted_agrees harmless c.config.baseAddress)
  rw [h]
  dsimp only
  exact ⟨rfl, rfl⟩

end Controller

end Firmware.I2c
