/-
  Firmware: the operations on scripted ports as data, and runs of them. A run ends early at the
  first read that cannot be answered. What the script is kept as is left open.
-/
import Firmware.Ports

namespace Firmware

/-- What can be asked of scripted ports. -/
inductive PortOperation where
  | prepare (reads : List PortByte)
  | input (port : UInt16)
  | output (port : UInt16) (value : UInt8)
  | clearWrites
  deriving DecidableEq

/-- Ports played by a script, in states of some kind. A read that the script does not allow for is
a fault. -/
structure ScriptedPorts (π ε : Type) where
  prepare : π → List PortByte → π
  /-- How many prepared reads are left. -/
  remaining : π → Nat
  input : π → UInt16 → Except ε (UInt8 × π)
  output : π → UInt16 → UInt8 → π
  clearWrites : π → π

/-- An operation that was carried out. -/
structure PortStep where
  operation : PortOperation
  /-- How many prepared reads were left before it. -/
  left : Nat
  /-- The byte that it answered, if it was a read. -/
  byte? : Option UInt8

/-- What came of some operations: those carried out, the state after them, and the fault at which
the run ended, if it did not get to the last of them. -/
structure PortRun (π ε : Type) where
  steps : List PortStep := []
  ports : π
  fault? : Option ε := none

namespace ScriptedPorts

variable {π ε : Type}

/-- Carries out one operation. -/
def perform (device : ScriptedPorts π ε) (ports : π) :
    PortOperation → Except ε (Option UInt8 × π)
  | .prepare reads => .ok (none, device.prepare ports reads)
  | .input port => (device.input ports port).map fun (byte, ports) => (some byte, ports)
  | .output port value => .ok (none, device.output ports port value)
  | .clearWrites => .ok (none, device.clearWrites ports)

/-- Carries out operations one after the other, up to the first fault. -/
def run (device : ScriptedPorts π ε) (ports : π) : List PortOperation → PortRun π ε
  | [] => { ports }
  | operation :: rest =>
    match device.perform ports operation with
    | .error fault => { ports, fault? := some fault }
    | .ok (byte?, after) =>
      let others := device.run after rest
      { others with
        steps := { operation, left := device.remaining ports, byte? } :: others.steps }

end ScriptedPorts

/-- Ports that keep their script as a queue. -/
def PortScript.device : ScriptedPorts PortScript PortFault where
  prepare := prepare
  remaining := remaining
  input := input
  output := output
  clearWrites := clearWrites

end Firmware
