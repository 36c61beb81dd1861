/-
  Firmware: register access. A back end reads and writes 32-bit words at absolute addresses and
  may change its state on either; read-modify-write operations and windows are built on that
  alone, so they work over every back end.
-/

namespace Firmware

/-- How the registers of a back end with states `σ` are reached. Reads may have effects. -/
structure Registers (σ : Type) where
  read : UInt64 → σ → UInt32 × σ
  write : UInt64 → UInt32 → σ → σ

namespace Registers

variable {σ : Type}

/-- Reads a register and writes back `f` of its value. -/
def modify (registers : Registers σ) (address : UInt64) (f : UInt32 → UInt32) (s : σ) : σ :=
  let (value, s) := registers.read address s
  registers.write address (f value) s

/-- Sets `bits` in a register and leaves the others. -/
def setBits (registers : Registers σ) (address : UInt64) (bits : UInt32) : σ → σ :=
  registers.modify address (· ||| bits)

/-- Clears `bits` in a register and leaves the others. -/
def clearBits (registers : Registers σ) (address : UInt64) (bits : UInt32) : σ → σ :=
  registers.modify address (· &&& ~~~bits)

/-- The registers from `base` on, addressed by their offsets. -/
def window (registers : Registers σ) (base : UInt64) : Registers σ where
  read offset := registers.read (base + offset)
  write offset := registers.write (base + offset)

/-- The registers of a part of a larger state. -/
def within {τ : Type} (registers : Registers σ) (get : τ → σ) (set : σ → τ → τ) :
    Registers τ where
  read address t :=
    let (value, s) := registers.read address (get t)
    (value, set s t)
  write address value t := set (registers.write address value (get t)) t

end Registers

end Firmware
