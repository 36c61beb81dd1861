/-
  Firmware: the flags word of the processor. One bit of it says whether interrupts are taken;
  saving answers the whole word and clears that bit, restoring writes a whole word back.
-/

namespace Firmware

/-- The flags word, and how often it was saved and restored. -/
structure FlagsWord where
  word : UInt64
  saves : Nat := 0
  restores : Nat := 0
  deriving DecidableEq

namespace FlagsWord

/-- The bit that lets interrupts through. -/
def interruptBit : UInt64 := 0x200

/-- The bit that always reads as one. -/
def reservedBit : UInt64 := 0x2

/-- The word at start-up. -/
def create (enabled : Bool) : FlagsWord :=
  { word := if enabled then reservedBit ||| interruptBit else reservedBit }

/-- Whether interrupts are taken. -/
def enabled (flags : FlagsWord) : Bool := flags.word &&& interruptBit != 0

/-- Answers the word and clears the interrupt bit. -/
def saveAndClear (flags : FlagsWord) : UInt64 × FlagsWord :=
  (flags.word,
    { flags with word := flags.word &&& ~~~interruptBit, saves := flags.saves + 1 })

/-- Writes a whole word. -/
def restore (flags : FlagsWord) (word : UInt64) : FlagsWord :=
  { flags with word, restores := flags.restores + 1 }

end FlagsWord

end Firmware
