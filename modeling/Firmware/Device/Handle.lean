/-
  Firmware: device handles. A handle operates any driver and adds what all devices share: the
  status (Idle, Busy while an operation runs, Error after a failure until the device is started
  again or reset), command decoding, and the interrupt vector register. Driver and handle act on
  one state `δ`, so they may share registers.
-/
import Firmware.Device.Driver
import Firmware.Polling
import Firmware.Registers.Basic
import Firmware.Text.Numeral

namespace Firmware

/-- A device with its driver's state. -/
structure Device (δ : Type) where
  base : UInt64
  state : δ
  status : DeviceStatus := .idle
  controlWord : UInt32 := 0
  /-- The interrupt line assigned to the device. -/
  irqLine : Option UInt32 := none
  journal : Journal := .empty

/-- What a device handle reports. -/
inductive DeviceNote where
  | unknownCommand (base : UInt64) (code : UInt32)
  | operationFailed (base : UInt64) (error : Error)
  | vectorSet (base : UInt64) (line : UInt32)

def DeviceNote.record : DeviceNote → Record
  | .unknownCommand base code =>
    ⟨.warn, s!"device {Numeral.hex 0 base.toNat}: " ++
      s!"unrecognized ioctl {Numeral.hex 0 code.toNat}"⟩
  | .operationFailed base error =>
    ⟨.warn, s!"device {Numeral.hex 0 base.toNat}: operation failed: {error.message}"⟩
  | .vectorSet base line =>
    ⟨.debug, s!"device {Numeral.hex 0 base.toNat}: irq vector set to {line.toNat}"⟩

namespace Device

variable {δ : Type}

/-- The offset of the interrupt vector register from the base of a device. -/
def vectorOffset : UInt64 := 0x10

/-- An idle device. -/
def create (base : UInt64) (state : δ) : Device δ := { base, state }

def note (device : Device δ) (n : DeviceNote) : Device δ :=
  { device with journal := device.journal.add n.record }

/-- Takes over what a driver's call left behind. -/
def accept {α : Type} (device : Device δ) (reply : DriverReply δ α) : Device δ :=
  { device with
    state := reply.state
    status := reply.status
    journal := device.journal.addAll reply.records }

/-- The status after an operation that began in status `prior`. Success goes back to `prior`, or
to Idle if the operation recovers the device; an absent capability changes nothing. -/
def statusAfter {α : Type} (prior : DeviceStatus) (recovers : Bool) :
    Except Error α → DeviceStatus
  | .ok _ => if recovers then .idle else prior
  | .error .unsupported => prior
  | .error _ => .error

/-- Takes over a reply and leaves Busy. -/
def finish {α : Type} (device : Device δ) (prior : DeviceStatus) (recovers : Bool)
    (reply : DriverReply δ α) : Device δ :=
  let device := device.accept reply
  let device :=
    match reply.result with
    | .ok _ | .error .unsupported => device
    | .error e => device.note (.operationFailed device.base e)
  { device with status := statusAfter prior recovers reply.result }

/-- Starts the device; success clears an Error. -/
def init (driver : Driver δ) (device : Device δ) : Except Error Unit × Device δ :=
  if device.status = .busy then (.error .busy, device)
  else
    let reply := driver.init .busy device.state
    (reply.result, device.finish device.status true reply)

/-- Stops the device and leaves its status to the driver. -/
def deinit (driver : Driver δ) (device : Device δ) : Except Error Unit × Device δ :=
  if device.status = .busy then (.error .busy, device)
  else
    let reply := driver.deinit device.status device.state
    (reply.result, device.accept reply)

/-- Reads into a buffer. A device in Error still reads but stays in Error. -/
def read (driver : Driver δ) (device : Device δ) (buffer : List UInt8) :
    Except Error Nat × List UInt8 × Device δ :=
  if device.status = .busy then (.error .busy, buffer, device)
  else
    let (buffer, reply) := driver.read buffer .busy device.state
    (reply.result, buffer, device.finish device.status false reply)

/-- Writes bytes. -/
def write (driver : Driver δ) (device : Device δ) (bytes : List UInt8) :
    Except Error Nat × Device δ :=
  if device.status = .busy then (.error .busy, device)
  else
    let reply := driver.write bytes .busy device.state
    (reply.result, device.finish device.status false reply)

/-- Decodes a command code and carries the command out; Reset recovers the device. -/
def ioctl (driver : Driver δ) (device : Device δ) (code argument : UInt32) :
    Except Error UInt32 × Device δ :=
  match DeviceCommand.ofCode code with
  | .error e => (.error e, device.note (.unknownCommand device.base code))
  | .ok command =>
    if device.status = .busy then (.error .busy, device)
    else
      let reply := driver.ioctl command argument .busy device.state
      (reply.result, device.finish device.status (command = .reset) reply)

/-- Assigns an interrupt line to a device that has a vector register and writes it there. -/
def setIrq (driver : Driver δ) (registers : Registers δ) (device : Device δ) (line : UInt32) :
    Except Error Unit × Device δ :=
  if driver.kind device.state = .interruptCapable then
    let state := registers.write (device.base + vectorOffset) line device.state
    (.ok (), { device with state, irqLine := some line }.note (.vectorSet device.base line))
  else (.error .unsupported, device)

/-- Waits until no operation is in flight, calling `relax` after each look at a busy status. The
handle sets no limit of its own: `patience` is how many looks the caller will wait for. `relax`
acts on a state `ρ` of its own and on the status, as an interrupt handler would. -/
def waitForReady {ρ : Type} (relax : ρ → DeviceStatus → ρ × DeviceStatus) (patience : Nat)
    (r : ρ) (device : Device δ) : Except Error Unit × ρ × Device δ :=
  let look (s : ρ × DeviceStatus) : Bool × ρ × DeviceStatus := (s.2 ≠ .busy, s)
  let (result, r, status) :=
    pollUntil patience look (fun s => relax s.1 s.2) (r, device.status)
  (result.map (fun _ => ()), r, { device with status })

end Device

end Firmware
