/-
  Firmware: a peripheral on the I2C bus as a device. A target is a controller bound to the
  address of one peripheral; its driver reads and writes with the retries of the configuration.
-/
import Firmware.Device.Driver
import Firmware.I2c.Controller

namespace Firmware.I2c

/-- A controller bound to an address. -/
structure Target (σ : Type) where
  controller : Controller σ
  address : Address

namespace Target

variable {σ : Type}

/-- Binds a controller to an address, if it has seven bits. -/
def bind (controller : Controller σ) (address : UInt8) : Except Error (Target σ) :=
  (Address.ofByte address).map fun address => { controller, address }

/-- What a target reports when it is reset. -/
def resetRecord (address : Address) : Record :=
  ⟨.debug, s!"i2c {BusNote.addressText address}: reset"⟩

/-- The reply of a call that left the controller in a new state and the status alone. What the
controller reported goes to the caller. -/
def reply {α : Type} (target : Target σ) (status : DeviceStatus) (result : Except Error α)
    (controller : Controller σ) : DriverReply (Target σ) α where
  result
  status
  state := { target with controller := { controller with journal := .empty } }
  records := controller.journal.records

/-- The driver of a target. -/
def driver (hardware : Hardware σ) : Driver (Target σ) where
  kind _ := .i2c
  init status target := target.reply status (.ok ()) (target.controller.init hardware)
  deinit status target := target.reply status (.ok ()) (target.controller.deinit hardware)
  read buffer status target :=
    let limit := target.controller.config.maxRetries.toNat
    let (result, filled, controller) :=
      target.controller.receiveWithRetries hardware target.address.value buffer limit
    (filled, target.reply status (result.map fun _ => filled.length) controller)
  write bytes status target :=
    let limit := target.controller.config.maxRetries.toNat
    let (result, controller) :=
      target.controller.sendWithRetries hardware target.address.value bytes limit
    target.reply status (result.map fun _ => bytes.length) controller
  ioctl command argument status target :=
    match command with
    | .reset =>
      let controller := target.controller
      let journal := controller.journal.add (resetRecord target.address)
      target.reply status (.ok 0) ({ controller with journal }.init hardware)
    | .setSpeed => target.reply status (.ok 0) (target.controller.setSpeed hardware argument)
    | .enableIrq | .disableIrq => target.reply status (.error .unsupported) target.controller

end Target

end Firmware.I2c
