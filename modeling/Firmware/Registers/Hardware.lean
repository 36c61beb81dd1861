/-
  Firmware: hardware as an engine sees it, which is registers together with the hook that runs
  between looks at a status. The hook may change anything the state holds.
-/
import Firmware.Registers.Basic

namespace Firmware

/-- Registers and a relax hook over one state `σ`. -/
structure Hardware (σ : Type) extends Registers σ where
  relax : σ → σ

namespace Hardware

variable {σ : Type}

/-- Registers with a hook that does nothing. -/
def spinning (registers : Registers σ) : Hardware σ := { registers with relax := id }

/-- The hardware from `base` on, addressed by offsets. -/
def window (hardware : Hardware σ) (base : UInt64) : Hardware σ where
  toRegisters := hardware.toRegisters.window base
  relax := hardware.relax

end Hardware

end Firmware
