/-
  Firmware: ports that latch. Once a latching script is used up, a read changes nothing and answers
  the last byte written to its port, so the ports are bytes that are written one at a time.
-/
import Firmware.Ports

namespace Firmware.PortScript

/-- Every read is answered by the last byte written: the script latches and is used up. -/
structure Latches (ports : PortScript) : Prop where
  latching : ports.latching = true
  exhausted : ports.pending = []

/-- What a port reads as once the script is used up. -/
def latched (ports : PortScript) (port : UInt16) : UInt8 := (ports.lastWrite? port).getD floating

variable {ports : PortScript}

theorem Latches.input (latches : ports.Latches) (port : UInt16) :
    ports.input port = .ok (ports.latched port, ports) := by
  rw [PortScript.input, latches.exhausted, if_pos latches.latching, latched]

theorem Latches.output (latches : ports.Latches) (port : UInt16) (value : UInt8) :
    (ports.output port value).Latches :=
  ⟨latches.latching, latches.exhausted⟩

theorem Latches.outputs (latches : ports.Latches) (bytes : List PortByte) :
    (bytes.foldl (fun ports byte => ports.output byte.1 byte.2) ports).Latches := by
  induction bytes generalizing ports with
  | nil => exact latches
  | cons byte rest ih => exact ih (latches.output byte.1 byte.2)

theorem lastWrite?_output (ports : PortScript) (port other : UInt16) (value : UInt8) :
    (ports.output port value).lastWrite? other =
      if other = port then some value else ports.lastWrite? other := by
  simp only [lastWrite?, PortScript.output, List.lookup_cons]
  by_cases same : other = port
  · simp [same]
  · simp [same, beq_eq_false_iff_ne.mpr same]

theorem latched_output (ports : PortScript) (port other : UInt16) (value : UInt8) :
    (ports.output port value).latched other =
      if other = port then value else ports.latched other := by
  rw [latched, lastWrite?_output]
  split <;> rfl

end Firmware.PortScript
