/-
  Firmware: the pair of cascaded 8259 interrupt controllers of a PC. The master holds the mask
  bits of lines 0 to 7 and the slave those of lines 8 to 15; a set bit masks its line. The slave
  reaches the processor through line 2 of the master.
-/
import Firmware.Error
import Firmware.Ports

namespace Firmware.MaskPair

/-- The command port of the master. -/
def masterCommand : UInt16 := 0x20

/-- The mask port of the master. -/
def masterData : UInt16 := 0x21

/-- The command port of the slave. -/
def slaveCommand : UInt16 := 0xA0

/-- The mask port of the slave. -/
def slaveData : UInt16 := 0xA1

/-- How many lines the pair routes. -/
def routedLines : Nat := 16

/-- The vector of the master's line 0 after `remap` at start-up. -/
def baseVector : UInt8 := 32

/-- Starts the programming of a controller, with a fourth word to follow. -/
def beginProgramming : UInt8 := 0x11

/-- The fourth programming word: 8086 mode. -/
def mode8086 : UInt8 := 0x01

/-- Tells a controller that the interrupt was handled. -/
def endOfInterrupt : UInt8 := 0x20

/-- The mask port and the bit of a line. -/
def place? (line : Nat) : Option (UInt16 × UInt8) :=
  if line < 8 then some (masterData, 1 <<< line.toUInt8)
  else if line < routedLines then some (slaveData, 1 <<< (line - 8).toUInt8)
  else none

/-- Sets or clears the mask bit of a line. -/
def setMasked (line : Nat) (masked : Bool) (ports : PortScript) :
    Except PortFault (Except Error Unit × PortScript) :=
  match place? line with
  | none => .ok (.error (.outOfRange line), ports)
  | some (port, bit) =>
    match ports.input port with
    | .error fault => .error fault
    | .ok (mask, ports) =>
      .ok (.ok (), ports.output port (if masked then mask ||| bit else mask &&& ~~~bit))

/-- Whether a line is masked. -/
def isMasked (line : Nat) (ports : PortScript) :
    Except PortFault (Except Error Bool × PortScript) :=
  match place? line with
  | none => .ok (.error (.outOfRange line), ports)
  | some (port, bit) =>
    match ports.input port with
    | .error fault => .error fault
    | .ok (mask, ports) => .ok (.ok (mask &&& bit != 0), ports)

/-- The bytes that program both controllers for the vectors from `master` and `slave` on: the
slave hangs on line 2 of the master and has cascade identity 2. -/
def programming (master slave : UInt8) : List PortByte :=
  [(masterCommand, beginProgramming), (slaveCommand, beginProgramming),
   (masterData, master), (slaveData, slave),
   (masterData, 0x04), (slaveData, 0x02),
   (masterData, mode8086), (slaveData, mode8086)]

/-- Programs both controllers and keeps their masks. -/
def remap (master slave : UInt8) (ports : PortScript) : Except PortFault PortScript :=
  match ports.input masterData with
  | .error fault => .error fault
  | .ok (masterMask, ports) =>
    match ports.input slaveData with
    | .error fault => .error fault
    | .ok (slaveMask, ports) =>
      .ok ((programming master slave ++ [(masterData, masterMask), (slaveData, slaveMask)]).foldl
        (fun ports (port, value) => ports.output port value) ports)

/-- Tells the controllers on the way of a line that its interrupt was handled. -/
def acknowledge (line : Nat) (ports : PortScript) : PortScript :=
  let ports := if 8 ≤ line then ports.output slaveCommand endOfInterrupt else ports
  ports.output masterCommand endOfInterrupt

end Firmware.MaskPair
