/-
  Firmware: byte-wide ports, played by a script. Prepared reads are answered in the order in
  which they were added, each only for its own port. Once they are used up, a latching script
  answers with the last byte written to the port and a strict one stops the run.
-/
import Firmware.Text.Numeral

namespace Firmware

/-- Why a scripted read stopped the run. -/
inductive PortFault where
  /-- The next prepared read is for another port. -/
  | mismatch (index : Nat) (expected actual : UInt16)
  /-- All `length` prepared reads are used, and the script is strict. -/
  | unscripted (port : UInt16) (length : Nat)
  deriving DecidableEq

/-- The text shown for a fault. -/
def PortFault.message : PortFault → String
  | .mismatch index expected actual =>
    s!"FakePortIo: Port mismatch at read_index={index}: " ++
      s!"expected {port expected}, got {port actual}"
  | .unscripted actual length =>
    s!"FakePortIo: No scripted read for port {port actual} " ++
      s!"(read_index={length}, script_len={length})"
where
  port (p : UInt16) : String := Numeral.upperHex 4 p.toNat

/-- A byte read from or written to a port. -/
abbrev PortByte := UInt16 × UInt8

/-- What the ports will answer and what was written to them. -/
structure PortScript where
  /-- Prepared reads not yet used, the next one first. -/
  pending : List PortByte := []
  /-- How many prepared reads have been used. -/
  used : Nat := 0
  /-- The bytes written since the latest clearing, the latest one first. -/
  latestWrites : List PortByte := []
  /-- Whether reads beyond the script answer the last byte written. -/
  latching : Bool

namespace PortScript

/-- What an undriven bus reads as. -/
def floating : UInt8 := 0xFF

/-- Prepares further reads. -/
def prepare (ports : PortScript) (reads : List PortByte) : PortScript :=
  { ports with pending := ports.pending ++ reads }

/-- How many prepared reads are left. -/
def remaining (ports : PortScript) : Nat := ports.pending.length

/-- The bytes written since the latest clearing, in order. -/
def writes (ports : PortScript) : List PortByte := ports.latestWrites.reverse

/-- The last byte written to a port since the latest clearing. -/
def lastWrite? (ports : PortScript) (port : UInt16) : Option UInt8 :=
  ports.latestWrites.lookup port

/-- Forgets what was written. -/
def clearWrites (ports : PortScript) : PortScript := { ports with latestWrites := [] }

/-- Reads a byte from a port. -/
def input (ports : PortScript) (port : UInt16) : Except PortFault (UInt8 × PortScript) :=
  match ports.pending with
  | (expected, value) :: pending =>
    if port = expected then .ok (value, { ports with pending, used := ports.used + 1 })
    else .error (.mismatch ports.used expected port)
  | [] =>
    if ports.latching then .ok ((ports.lastWrite? port).getD floating, ports)
    else .error (.unscripted port ports.used)

/-- Writes a byte to a port. -/
def output (ports : PortScript) (port : UInt16) (value : UInt8) : PortScript :=
  { ports with latestWrites := (port, value) :: ports.latestWrites }

end PortScript

end Firmware
