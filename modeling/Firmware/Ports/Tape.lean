/-
  Firmware: scripted ports that keep the whole script. Prepared reads are only ever added behind
  it, and a position tells how far it has been used. To their user these ports are no different
  from those that keep a queue of what is left.
-/
import Firmware.Ports.Operation

namespace Firmware

/-- A script with a position in it, and what was written to the ports. -/
structure PortTape where
  script : Array PortByte := #[]
  /-- How many reads of the script have been used. -/
  position : Nat := 0
  /-- The bytes written since the latest clearing, in order. -/
  writes : Array PortByte := #[]
  /-- Whether reads beyond the script answer the last byte written. -/
  latching : Bool

namespace PortTape

/-- Prepares further reads. -/
def prepare (tape : PortTape) (reads : List PortByte) : PortTape :=
  { tape with script := tape.script ++ reads }

/-- How many prepared reads are left. The position must not lie beyond the script. -/
def remaining (tape : PortTape) : Nat := tape.script.size - tape.position

/-- The last byte written to a port since the latest clearing. -/
def lastWrite? (tape : PortTape) (port : UInt16) : Option UInt8 :=
  (tape.writes.toList.reverse.find? fun byte => byte.1 = port).map Prod.snd

/-- Forgets what was written. -/
def clearWrites (tape : PortTape) : PortTape := { tape with writes := #[] }

/-- Reads a byte from a port, or tells why that cannot be. -/
def input (tape : PortTape) (port : UInt16) : Except String (UInt8 × PortTape) :=
  if h : tape.position < tape.script.size then
    let (expected, value) := tape.script[tape.position]
    if port = expected then .ok (value, { tape with position := tape.position + 1 })
    else .error <|
      s!"FakePortIo: Port mismatch at read_index={tape.position}: " ++
        s!"expected {text expected}, got {text port}"
  else if tape.latching then .ok ((tape.lastWrite? port).getD PortScript.floating, tape)
  else .error <|
    s!"FakePortIo: No scripted read for port {text port} " ++
      s!"(read_index={tape.position}, script_len={tape.script.size})"
where
  text (port : UInt16) : String := Numeral.upperHex 4 port.toNat

/-- Writes a byte to a port. -/
def output (tape : PortTape) (port : UInt16) (value : UInt8) : PortTape :=
  { tape with writes := tape.writes.push (port, value) }

/-- Ports that keep their script as a tape. -/
def device : ScriptedPorts PortTape String where
  prepare := prepare
  remaining := remaining
  input := input
  output := output
  clearWrites := clearWrites

end PortTape

end Firmware
