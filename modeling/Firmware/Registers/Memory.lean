/-
  Firmware: plain memory as a register back end. A byte address names the 32-bit word that
  holds it; reading has no effect and writing changes that word only.
-/
import Firmware.Registers.Basic

namespace Firmware

/-- Consecutive 32-bit words from address zero on. -/
structure Memory where
  words : Array UInt32

namespace Memory

/-- Memory of `size` zeroed words. -/
def zeroed (size : Nat) : Memory := ⟨Array.replicate size 0⟩

def read (memory : Memory) (address : UInt64) : UInt32 :=
  memory.words.getD (address.toNat / 4) 0

def write (memory : Memory) (address : UInt64) (value : UInt32) : Memory :=
  ⟨memory.words.setIfInBounds (address.toNat / 4) value⟩

/-- Memory as a register back end. -/
def registers : Registers Memory where
  read address memory := (memory.read address, memory)
  write address value memory := memory.write address value

end Memory

end Firmware
