/-
  Firmware: a calm simulator. The bus is not held, no acknowledgment is withheld and nothing
  stalls, so a transaction is delivered if its peripheral is attached and not acknowledged
  otherwise. Either way the simulator stays calm, and so does a controller that drives it.
-/
import Firmware.Proofs.I2c.Controller
import Firmware.Proofs.I2c.Hosted
import Firmware.Proofs.I2c.SimulatedTransfer

namespace Firmware.I2c

namespace Simulator

/-- A simulator at `base` with no fault in store. -/
structure Calm (base : UInt64) (s : Simulator) : Prop extends Sound base s where
  free : s.heldReads = 0
  willing : s.nacks = 0
  running : s.stalled = false

variable {base : UInt64} {s : Simulator} {p : Peripheral}

/-- What touches neither the faults nor the control register keeps a simulator calm. -/
theorem Calm.keep {after : Simulator} (h : s.Calm base) (hsound : after.Sound base)
    (hheld : after.heldReads = 0) (hnacks : after.nacks = s.nacks)
    (hstalled : after.stalled = s.stalled) : after.Calm base :=
  { hsound with
    free := hheld
    willing := hnacks.trans h.willing
    running := hstalled.trans h.running }

/-- The first delivery uses up what was held, so with no acknowledgment withheld it leaves no
fault behind. -/
theorem Sound.calm_delivered (h : s.Sound base) (hnacks : s.nacks = 0)
    (hstalled : s.stalled = false) (t : Transaction) (p : Peripheral) :
    (s.delivered t p).Calm base :=
  { h.keep rfl rfl with free := rfl, willing := hnacks, running := hstalled }

theorem Calm.looked (h : s.Calm base) (n : Nat) : (s.looked n).Calm base := by
  refine h.keep (h.toSound.keep rfl rfl) ?_ rfl rfl
  show s.heldReads - n = 0
  rw [h.free, Nat.zero_sub]

theorem Calm.refused (h : s.Calm base) (t : Transaction) : (s.refused t).Calm base := by
  refine h.keep (h.toSound.keep rfl rfl) rfl ?_ rfl
  show (if _ then s.nacks - 1 else s.nacks) = s.nacks
  rw [h.willing, ite_self]

theorem Calm.run_refused (h : s.Calm base) (t : Transaction) (hbudget : 0 < t.budget)
    (hnone : s.target? t = none) :
    t.run (bare base) s = (.error .addressPhase, t.payload, s.refused t) :=
  Simulator.run_refused h.toSound t (h.free ▸ hbudget) (.inl hnone)

end Simulator

namespace Controller

open Simulator

/-- A controller went on from one with the same configuration, and its simulator is calm and has
certain peripherals attached. -/
structure CalmAfter (c c' : Controller Simulator)
    (peripherals : Vector (Option Peripheral) 256) : Prop where
  config_eq : c'.config = c.config
  calm : c'.bus.Calm c.config.baseAddress
  peripherals_eq : c'.bus.peripherals = peripherals

variable {τ : Type} {relax : Simulator × τ → Simulator × τ} {c : Controller (Simulator × τ)}
  {p : Peripheral}

/-- Beside a hook that leaves the simulator alone an exchange is its transaction on it. -/
theorem exchange_of_bare_run (harmless : ∀ s, (relax s).1 = s.1) {address : Address}
    {payload payload' : Payload} {outcome : Outcome} {after : Simulator}
    (h : (c.exchanged address payload).run (bare c.config.baseAddress) c.bus.1 =
      (outcome, payload', after)) :
    ∃ c', c.exchange (hosted relax) address.value payload = (outcome.answer, payload', c') ∧
      c'.seen.config = c.config ∧ c'.seen.bus = after := by
  obtain ⟨hresult, hpayload, hseen⟩ := exchange_seen harmless c address.value payload
  obtain ⟨_, hexchange⟩ := exchange_of_run (c := c.seen) alone h
  rw [hexchange] at hresult hpayload hseen
  generalize c.exchange (hosted relax) address.value payload = exchanged at hresult hpayload hseen ⊢
  obtain ⟨result, returned, c'⟩ := exchanged
  cases hresult
  cases hpayload
  exact ⟨c', rfl, congrArg (·.config) hseen, congrArg (·.bus) hseen⟩

/-- An exchange with an attached peripheral is delivered if the bus gets free within the budget and
nothing else is in its way. -/
theorem exchange_free (harmless : ∀ s, (relax s).1 = s.1)
    (sound : c.bus.1.Sound c.config.baseAddress)
    (hfree : c.bus.1.heldReads < c.config.timeoutBudget.toNat) (hnacks : c.bus.1.nacks = 0)
    (hstalled : c.bus.1.stalled = false) (address : Address) (payload : Payload)
    (hp : c.bus.1.peripheral? address.value = some p) :
    ∃ c', c.exchange (hosted relax) address.value payload =
        (.ok (), (payload.deliver p).1, c') ∧
      c.seen.CalmAfter c'.seen
        (c.bus.1.place address.value (some (payload.deliver p).2)).peripherals := by
  have hrun := run_delivered sound (c.exchanged address payload) hfree hp hnacks hstalled
  obtain ⟨c', hexchange, hconfig, hbus⟩ := exchange_of_bare_run harmless hrun
  have hcalm := sound.calm_delivered hnacks hstalled (c.exchanged address payload) p
  exact ⟨c', hexchange, hconfig, hbus ▸ hcalm, congrArg (·.peripherals) hbus⟩

/-- Without faults an exchange with an attached peripheral is delivered. -/
theorem exchange_delivered (harmless : ∀ s, (relax s).1 = s.1)
    (calm : c.bus.1.Calm c.config.baseAddress) (hbudget : 0 < c.config.timeoutBudget.toNat)
    (address : Address) (payload : Payload)
    (hp : c.bus.1.peripheral? address.value = some p) :
    ∃ c', c.exchange (hosted relax) address.value payload =
        (.ok (), (payload.deliver p).1, c') ∧
      c.seen.CalmAfter c'.seen
        (c.bus.1.place address.value (some (payload.deliver p).2)).peripherals :=
  exchange_free harmless calm.toSound (calm.free ▸ hbudget) calm.willing calm.running address
    payload hp

/-- Without faults an exchange with nobody runs out of its budget. -/
theorem exchange_refused (harmless : ∀ s, (relax s).1 = s.1)
    (calm : c.bus.1.Calm c.config.baseAddress) (hbudget : 0 < c.config.timeoutBudget.toNat)
    (address : Address) (payload : Payload)
    (hnone : c.bus.1.peripheral? address.value = none) :
    ∃ c', c.exchange (hosted relax) address.value payload = (.error .timeout, payload, c') ∧
      c.seen.CalmAfter c'.seen c.bus.1.peripherals := by
  have hrun := calm.run_refused (c.exchanged address payload) hbudget hnone
  obtain ⟨c', hexchange, hconfig, hbus⟩ := exchange_of_bare_run harmless hrun
  have hcalm := calm.refused (c.exchanged address payload)
  exact ⟨c', hexchange, hconfig, hbus ▸ hcalm, congrArg (·.peripherals) hbus⟩

end Controller

end Firmware.I2c
