/-
  Firmware: the registers of an I2C controller. Four 32-bit registers stand at fixed offsets
  from the base; of the status and control words only the lowest bits have a meaning.
-/

namespace Firmware.I2c

/-- The base address of the reference board. -/
def defaultBase : UInt64 := 0x40003000

def statusOffset : UInt64 := 0x00
def controlOffset : UInt64 := 0x04
def dataOffset : UInt64 := 0x08
def clockOffset : UInt64 := 0x0C

/-! ## Bits -/

/-- Status: another transfer holds the bus. -/
def busyBit : UInt32 := 1

/-- Status: the last byte was transferred. -/
def doneBit : UInt32 := 2

/-- Control: generate a START condition. -/
def startBit : UInt32 := 1

/-- Control: generate a STOP condition. -/
def stopBit : UInt32 := 2

/-- Control: acknowledge received bytes. -/
def ackBit : UInt32 := 4

/-- What a status word says. -/
structure StatusFlags where
  busy : Bool
  done : Bool
  deriving DecidableEq

/-- What a control word says. -/
structure ControlFlags where
  start : Bool
  stop : Bool
  ack : Bool
  deriving DecidableEq

def StatusFlags.ofWord (word : UInt32) : StatusFlags where
  busy := word &&& busyBit != 0
  done := word &&& doneBit != 0

def ControlFlags.ofWord (word : UInt32) : ControlFlags where
  start := word &&& startBit != 0
  stop := word &&& stopBit != 0
  ack := word &&& ackBit != 0

def StatusFlags.toWord (flags : StatusFlags) : UInt32 :=
  (if flags.busy then busyBit else 0) ||| (if flags.done then doneBit else 0)

def ControlFlags.toWord (flags : ControlFlags) : UInt32 :=
  (if flags.start then startBit else 0) ||| (if flags.stop then stopBit else 0) |||
    (if flags.ack then ackBit else 0)

/-- The names of the flags that are set, or a zero word. -/
def flagText (kind : String) (flags : List (Bool × String)) : String :=
  let names := flags.filterMap fun (set, name) => if set then some name else none
  kind ++ "(" ++ (if names = [] then "0x0" else " | ".intercalate names) ++ ")"

def StatusFlags.text (flags : StatusFlags) : String :=
  flagText "StatusFlags" [(flags.busy, "BUSY"), (flags.done, "DONE")]

def ControlFlags.text (flags : ControlFlags) : String :=
  flagText "ControlFlags" [(flags.start, "START"), (flags.stop, "STOP"), (flags.ack, "ACK")]

end Firmware.I2c
