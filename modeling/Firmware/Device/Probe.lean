/-
  Firmware: a driver double. It records which capability was called and which status the call
  saw, stores a prepared status, and then fails with a prepared error or succeeds.
-/
import Firmware.Device.Driver

namespace Firmware

/-- A capability of a driver as a caller names it. -/
inductive Capability where
  | init
  | deinit
  | read
  | write
  | ioctl (command : DeviceCommand)
  deriving DecidableEq

/-- The name of a capability as it is shown; a command goes by its own. -/
def Capability.name : Capability → String
  | .init => "init"
  | .deinit => "deinit"
  | .read => "read"
  | .write => "write"
  | .ioctl command => command.name

/-- A driver double next to a state `β` that it does not touch. -/
structure Probe (β : Type) where
  /-- What every call fails with, if anything. -/
  fail : Option Error := none
  /-- What every call stores as status, if anything. -/
  poke : Option DeviceStatus := none
  /-- The calls and the status each of them saw, the latest one first. -/
  latestObserved : List (Capability × DeviceStatus) := []
  beside : β

namespace Probe

variable {β : Type}

/-- The calls and the status each of them saw, in order. -/
def observed (probe : Probe β) : List (Capability × DeviceStatus) := probe.latestObserved.reverse

/-- Answers a call with `value` unless a failure is prepared. -/
def answer {α : Type} (capability : Capability) (value : α) (status : DeviceStatus)
    (probe : Probe β) : DriverReply (Probe β) α where
  result := match probe.fail with
    | some e => .error e
    | none => .ok value
  status := probe.poke.getD status
  state := { probe with latestObserved := (capability, status) :: probe.latestObserved }

/-- What a successful read fills its buffer with. -/
def fillByte : UInt8 := 0xA5

def driver (kind : DeviceKind) : Driver (Probe β) where
  kind _ := kind
  init := answer .init ()
  deinit := answer .deinit ()
  read buffer status probe :=
    (if probe.fail.isSome then buffer else buffer.map fun _ => fillByte,
      answer .read buffer.length status probe)
  write bytes := answer .write bytes.length
  ioctl command argument := answer (.ioctl command) (command.code + argument)

end Probe

end Firmware
