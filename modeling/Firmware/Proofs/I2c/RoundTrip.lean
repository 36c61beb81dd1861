/-
  Firmware: an EEPROM through the device contract. A target whose faults are fewer than its
  attempts gets every transfer through, and after the first one no fault is left. So bytes that
  are written through a device handle are read back once the pointer is set to where they begin.
-/
import Firmware.I2c.Target
import Firmware.Proofs.Device.Calls
import Firmware.Proofs.I2c.Retries

namespace Firmware.I2c

open Simulator

variable {τ : Type} {relax : Simulator × τ → Simulator × τ} {p q : Peripheral}

namespace Target

variable {target after last : Target (Simulator × τ)}

/-- The transfers of a target get through to a peripheral. -/
structure Reaches (target : Target (Simulator × τ)) (p : Peripheral) : Prop where
  sound : target.simulator.Sound target.controller.config.baseAddress
  budget_pos : 0 < target.controller.config.timeoutBudget.toNat
  attached : target.simulator.peripheral? target.address.value = some p
  running : target.simulator.stalled = false
  faults_lt : target.simulator.faults target.controller.config.timeoutBudget.toNat <
    target.controller.config.maxRetries.toNat

/-- Transfers left the peripheral of a target in a certain state, and all others alone. -/
structure Left (target after : Target (Simulator × τ)) (q : Peripheral) : Prop where
  address_eq : after.address = target.address
  reaches : after.Reaches q
  others : ∀ other, other ≠ target.address.value →
    after.simulator.peripheral? other = target.simulator.peripheral? other

theorem Left.trans (h : target.Left after p) (h' : after.Left last q) : target.Left last q where
  address_eq := h'.address_eq.trans h.address_eq
  reaches := h'.reaches
  others other hne := (h'.others other (h.address_eq ▸ hne)).trans (h.others other hne)

/-- A transfer that gets through leaves its peripheral as the payload says. -/
theorem exchange_left (harmless : ∀ s, (relax s).1 = s.1) (h : target.Reaches p)
    (payload : Payload) :
    ∃ c', target.controller.exchangeWithRetries (hosted relax)
        target.controller.config.maxRetries.toNat target.address.value payload =
        (.ok (), (payload.deliver p).1, c') ∧
      ∀ journal, target.Left { target with controller := { c' with journal } }
        (payload.deliver p).2 := by
  obtain ⟨c', hexchange, hafter, -⟩ := Controller.exchangeWithRetries_delivered harmless h.sound
    h.budget_pos target.address payload h.attached h.running h.faults_lt
  have hconfig : c'.config = target.controller.config := hafter.config_eq
  have hperipherals (other : UInt8) := peripheral?_congr hafter.peripherals_eq other
  refine ⟨c', hexchange, fun journal => ⟨rfl, ?_, fun other hne => ?_⟩⟩
  · constructor
    · show c'.bus.1.Sound c'.config.baseAddress
      rw [hconfig]
      exact hafter.calm.toSound
    · show 0 < c'.config.timeoutBudget.toNat
      rw [hconfig]
      exact h.budget_pos
    · exact (hperipherals _).trans (peripheral?_place ..)
    · exact hafter.calm.running
    · show c'.bus.1.heldReads / _ + c'.bus.1.nacks < c'.config.maxRetries.toNat
      rw [show c'.bus.1.heldReads = 0 from hafter.calm.free,
        show c'.bus.1.nacks = 0 from hafter.calm.willing, Nat.zero_div, hconfig]
      exact Nat.zero_lt_of_lt h.faults_lt
  · exact (hperipherals other).trans (peripheral?_place_ne _ hne _)

variable {device : Device (Target (Simulator × τ))}

theorem write_left (harmless : ∀ s, (relax s).1 = s.1) (free : device.status ≠ .busy)
    (h : device.state.Reaches p) (bytes : List UInt8) :
    ∃ device', device.write (driver (hosted relax)) bytes = (.ok bytes.length, device') ∧
      device'.status = device.status ∧ device.state.Left device'.state (p.written bytes) := by
  obtain ⟨c', hexchange, hleft⟩ := exchange_left harmless h (.write bytes)
  have hcalls : (driver (hosted relax)).write bytes .busy device.state =
      device.state.reply .busy (.ok bytes.length) c' := by
    simp only [driver, Controller.sendWithRetries, hexchange]
    rfl
  obtain ⟨journal, hwrite⟩ := Device.write_of_ok free hcalls rfl
  exact ⟨_, hwrite, rfl, hleft .empty⟩

theorem read_left (harmless : ∀ s, (relax s).1 = s.1) (free : device.status ≠ .busy)
    (h : device.state.Reaches p) (buffer : List UInt8) :
    ∃ device', device.read (driver (hosted relax)) buffer =
        (.ok buffer.length, p.shown buffer.length, device') ∧
      device'.status = device.status ∧
      device.state.Left device'.state (p.passed buffer.length) := by
  obtain ⟨c', hexchange, hleft⟩ := exchange_left harmless h (.read buffer)
  have hcalls : (driver (hosted relax)).read buffer .busy device.state =
      (p.shown buffer.length, device.state.reply .busy (.ok buffer.length) c') := by
    simp only [driver, Controller.receiveWithRetries, hexchange, Payload.deliver, Payload.buffer,
      Peripheral.length_shown]
    rfl
  obtain ⟨journal, hread⟩ := Device.read_of_ok free hcalls rfl
  exact ⟨_, hread, rfl, hleft .empty⟩

end Target

/-- **Bytes that are written to an EEPROM are read back.** A device that is not Busy, bound to an
address on a simulator that is not stalled and whose faults are fewer than the attempts: after any
bytes, no more than the memory holds, were written from `start` on, also around the end of the
memory, and the pointer was set back, they fill a buffer of their number. All three calls succeed
and leave the status as it was. From the first of them on the bytes are in the memory in slots of
their own, and its other bytes and all other peripherals are as before. -/
theorem eeprom_round_trip (harmless : ∀ s, (relax s).1 = s.1)
    (device : Device (Target (Simulator × τ))) (free : device.status ≠ .busy)
    (reachable : Reachable device.state.controller.config.baseAddress device.state.simulator)
    (hbudget : 0 < device.state.controller.config.timeoutBudget.toNat)
    (attached : device.state.simulator.peripheral? device.state.address.value = some p)
    (running : device.state.simulator.stalled = false)
    (hfaults : device.state.simulator.heldReads /
        device.state.controller.config.timeoutBudget.toNat + device.state.simulator.nacks <
      device.state.controller.config.maxRetries.toNat)
    (start : UInt8) (data buffer : List UInt8) (hdata : data.length ≤ memorySize)
    (hbuffer : buffer.length = data.length) :
    let driver := Target.driver (hosted relax)
    let stored := device.write driver (start :: data)
    let pointed := stored.2.write driver [start]
    let answered := pointed.2.read driver buffer
    stored.1 = .ok (data.length + 1) ∧ pointed.1 = .ok 1 ∧ answered.1 = .ok data.length ∧
    answered.2.1 = data ∧
    ∀ after ∈ [stored.2, pointed.2, answered.2.2],
      after.status = device.status ∧
      (∀ other, other ≠ device.state.address.value →
        after.state.simulator.peripheral? other = device.state.simulator.peripheral? other) ∧
      ∃ q, after.state.simulator.peripheral? device.state.address.value = some q ∧
        p.Overwritten start data q := by
  have hreaches : device.state.Reaches p := ⟨reachable.sound, hbudget, attached, running, hfaults⟩
  obtain ⟨first, hfirst, hstatus₁, hleft₁⟩ :=
    Target.write_left harmless free hreaches (start :: data)
  obtain ⟨second, hsecond, hstatus₂, hleft₂⟩ :=
    Target.write_left harmless (hstatus₁ ▸ free) hleft₁.reaches [start]
  have hstatus₂ : second.status = device.status := hstatus₂.trans hstatus₁
  obtain ⟨third, hthird, hstatus₃, hleft₃⟩ :=
    Target.read_left harmless (hstatus₂ ▸ free) hleft₂.reaches buffer
  have hstatus₃ : third.status = device.status := hstatus₃.trans hstatus₂
  rw [hbuffer] at hthird hleft₃
  dsimp only
  rw [hfirst]
  dsimp only
  rw [hsecond]
  dsimp only
  rw [hthird, Peripheral.shown_written p start hdata]
  refine ⟨rfl, rfl, rfl, rfl, ?_⟩
  -- All three devices have the peripheral with the same memory; only its pointer moves on.
  have hkept {after : Device (Target (Simulator × τ))} {q : Peripheral}
      (hleft : device.state.Left after.state q)
      (hmemory : q.memory = (p.written (start :: data)).memory) :
      (∀ other, other ≠ device.state.address.value →
        after.state.simulator.peripheral? other = device.state.simulator.peripheral? other) ∧
      ∃ q, after.state.simulator.peripheral? device.state.address.value = some q ∧
        p.Overwritten start data q :=
    ⟨hleft.others, q, hleft.address_eq ▸ hleft.reaches.attached,
      (Peripheral.overwritten_written p start hdata).congr hmemory⟩
  have hpointer := Peripheral.memory_written_pointer (p.written (start :: data)) start
  intro after hmem
  simp only [List.mem_cons, List.not_mem_nil, or_false] at hmem
  rcases hmem with rfl | rfl | rfl
  · exact ⟨hstatus₁, hkept hleft₁ rfl⟩
  · exact ⟨hstatus₂, hkept (hleft₁.trans hleft₂) hpointer⟩
  · exact ⟨hstatus₃, hkept ((hleft₁.trans hleft₂).trans hleft₃) hpointer⟩

/-- A device in Error whose first two attempts meet a fault: three bytes around the end of the
memory, stored at the third attempt, come back. -/
theorem eeprom_round_trip_third_attempt :
    let sim := (Handling.nackNext 1).applied ((Handling.holdBus 1).applied
      ((Handling.attach 0x50).applied (Simulator.create defaultBase)))
    let target : Target (Simulator × Unit) :=
      { controller := Controller.create { timeoutBudget := 1 } (sim, ())
        address := ⟨0x50, by decide⟩ }
    let device : Device (Target (Simulator × Unit)) :=
      { base := defaultBase, state := target, status := .error }
    let driver := Target.driver (hosted id)
    let stored := device.write driver [0xFE, 1, 2, 3]
    let pointed := stored.2.write driver [0xFE]
    let answered := pointed.2.read driver [0, 0, 0]
    device.status ≠ .busy ∧ Reachable target.controller.config.baseAddress target.simulator ∧
    stored.1 = .ok 4 ∧ answered.1 = .ok 3 ∧ answered.2.1 = [1, 2, 3] ∧
    answered.2.2.status = .error := by
  intro sim target device driver stored pointed answered
  have harmless (s : Simulator × Unit) : (id s).1 = s.1 := rfl
  have free : device.status ≠ .busy := nofun
  have reachable : Reachable target.controller.config.baseAddress target.simulator :=
    .handle (.nackNext 1) (.handle (.holdBus 1) (.handle (.attach 0x50) .create))
  have attached : target.simulator.peripheral? target.address.value = some {} :=
    peripheral?_place (.create defaultBase) 0x50 _
  obtain ⟨hstored, -, hanswered, hfilled, hafter⟩ :=
    eeprom_round_trip harmless device free reachable (by decide) attached rfl (by decide)
      0xFE [1, 2, 3] [0, 0, 0] (by decide) rfl
  have hstatus := (hafter _ (.tail _ (.tail _ (.head _)))).1
  dsimp only [answered, pointed, stored, driver]
  exact ⟨free, reachable, hstored, hanswered, hfilled, hstatus⟩

end Firmware.I2c
