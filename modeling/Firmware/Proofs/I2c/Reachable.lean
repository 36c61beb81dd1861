/-
  Firmware: the states that a simulated controller can get into, and the hardware that a
  controller sees when it drives one. Whatever is done to a simulator, its base stays and its
  control register holds nothing but the acknowledge bit, so a START or STOP that is set there
  comes alone.
-/
import Firmware.I2c.Bench
import Mathlib.Data.Nat.Bitwise

namespace Firmware.I2c

/-- What a handling, direct register accesses included, does to a simulator. -/
def Handling.applied (handling : Handling) (sim : Simulator) : Simulator :=
  match handling with
  | .read address => (Simulator.registers.read address sim).2
  | .write address value => Simulator.registers.write address value sim
  | _ => handling.onSimulator sim

/-- On a bench that holds a simulator, handling the back end is handling that simulator. -/
theorem Handling.perform_simulated (handling : Handling) (sim : Simulator) :
    (handling.perform (.simulated sim)).2 = .simulated (handling.applied sim) := by
  cases handling <;> rfl

namespace Simulator

/-- The states of a simulator at `base`: it is created there and then handled in any way. -/
inductive Reachable (base : UInt64) : Simulator → Prop where
  | create : Reachable base (create base)
  | handle {sim : Simulator} (handling : Handling) :
    Reachable base sim → Reachable base (handling.applied sim)

/-- What every state of a simulator at `base` keeps. -/
structure Sound (base : UInt64) (sim : Simulator) : Prop where
  base_eq : sim.base = base
  control_ack : sim.control = 0 ∨ sim.control = ackBit

variable {base : UInt64} {sim after : Simulator}

/-- What changes neither the base nor the control register keeps a sound state sound. -/
theorem Sound.keep (h : sim.Sound base) (hbase : after.base = sim.base)
    (hcontrol : after.control = sim.control) : after.Sound base :=
  ⟨hbase.trans h.base_eq, hcontrol ▸ h.control_ack⟩

theorem and_ackBit (word : UInt32) : word &&& ackBit = 0 ∨ word &&& ackBit = ackBit := by
  have hbit : (word &&& ackBit).toNat = (word.toNat.testBit 2).toNat * 2 ^ 2 := by
    rw [UInt32.toNat_and, show ackBit.toNat = 2 ^ 2 from rfl, Nat.and_two_pow]
  cases h : word.toNat.testBit 2 with
  | false => exact .inl (UInt32.toNat.inj (by rw [hbit, h]; rfl))
  | true => exact .inr (UInt32.toNat.inj (by rw [hbit, h]; rfl))

theorem Sound.writeControl (h : sim.Sound base) (word : UInt32) :
    (sim.writeControl word).Sound base where
  base_eq := by
    rw [← h.base_eq]
    simp only [Simulator.writeControl]
    split <;> split <;> rfl
  control_ack := and_ackBit word

/-! ## What sets nothing -/

/-- The base, the control register and the clock register are as they were. -/
structure SameSettings (sim after : Simulator) : Prop where
  base_eq : after.base = sim.base
  control_eq : after.control = sim.control
  clock_eq : after.clock = sim.clock

namespace SameSettings

variable {later : Simulator}

theorem refl (sim : Simulator) : sim.SameSettings sim := ⟨rfl, rfl, rfl⟩

theorem trans (h : sim.SameSettings after) (h' : after.SameSettings later) :
    sim.SameSettings later :=
  ⟨h'.base_eq.trans h.base_eq, h'.control_eq.trans h.control_eq, h'.clock_eq.trans h.clock_eq⟩

theorem sound (h : sim.SameSettings after) (sound : sim.Sound base) : after.Sound base :=
  sound.keep h.base_eq h.control_eq

theorem writeData (sim : Simulator) (word : UInt32) : sim.SameSettings (sim.writeData word) := by
  unfold Simulator.writeData
  dsimp only
  split
  · unfold openTransfer
    dsimp only
    repeat' split
    all_goals exact ⟨rfl, rfl, rfl⟩
  · unfold storeByte
    dsimp only
    split <;> exact ⟨rfl, rfl, rfl⟩
  all_goals exact ⟨rfl, rfl, rfl⟩

theorem readData (sim : Simulator) : sim.SameSettings sim.readData.2 := by
  unfold Simulator.readData
  repeat' split
  all_goals exact ⟨rfl, rfl, rfl⟩

theorem read (sim : Simulator) (address : UInt64) :
    sim.SameSettings (registers.read address sim).2 := by
  have hdata := readData sim
  simp only [registers]
  repeat' split
  · exact ⟨rfl, rfl, rfl⟩
  · exact refl sim
  · exact hdata
  · exact refl sim
  · exact refl sim

theorem onSimulator (sim : Simulator) (handling : Handling) :
    sim.SameSettings (handling.onSimulator sim) := by
  cases handling with
  | load address offset bytes =>
    simp only [Handling.onSimulator, load]
    split <;> exact ⟨rfl, rfl, rfl⟩
  | _ => exact ⟨rfl, rfl, rfl⟩

end SameSettings

/-! ## What every state keeps -/

theorem Sound.read (h : sim.Sound base) (address : UInt64) :
    (registers.read address sim).2.Sound base :=
  (SameSettings.read sim address).sound h

theorem Sound.write (h : sim.Sound base) (address : UInt64) (word : UInt32) :
    (registers.write address word sim).Sound base := by
  simp only [registers]
  repeat' split
  · exact h.writeControl word
  · exact (SameSettings.writeData sim word).sound h
  · exact h.keep rfl rfl
  · exact h

theorem Sound.onSimulator (h : sim.Sound base) (handling : Handling) :
    (handling.onSimulator sim).Sound base :=
  (SameSettings.onSimulator sim handling).sound h

theorem Sound.applied (h : sim.Sound base) (handling : Handling) :
    (handling.applied sim).Sound base := by
  unfold Handling.applied
  split
  · exact h.read _
  · exact h.write _ _
  · exact h.onSimulator handling

theorem Reachable.sound (h : Reachable base sim) : sim.Sound base := by
  induction h with
  | create => exact ⟨rfl, .inl rfl⟩
  | handle handling _ ih => exact ih.applied handling

/-! ## As hardware -/

/-- A simulator and nothing else. -/
def alone : Hardware Simulator := Hardware.spinning registers

/-- A simulator in the window of a controller at `base`. -/
def bare (base : UInt64) : Hardware Simulator := alone.window base

/-- A simulator beside whatever else the relax hook works on. -/
def hosted {τ : Type} (relax : Simulator × τ → Simulator × τ) : Hardware (Simulator × τ) where
  toRegisters := registers.within (·.1) fun sim s => (sim, s.2)
  relax := relax

end Simulator

end Firmware.I2c
