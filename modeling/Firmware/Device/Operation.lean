/-
  Firmware: the operations of a device handle as data, so that a run is a list of them. Storing
  a status is what an interrupt handler does between operations.
-/
import Firmware.Device.Handle

namespace Firmware

/-- What can be asked of a device handle, and the stores made beside it. -/
inductive DeviceOperation where
  | init
  | deinit
  | read (buffer : List UInt8)
  | write (bytes : List UInt8)
  | ioctl (code argument : UInt32)
  | setIrq (line : UInt32)
  | setControlWord (word : UInt32)
  | storeStatus (status : DeviceStatus)

/-- What a device handle answers. -/
inductive DeviceAnswer where
  | done
  | result (result : Except Error Unit)
  | count (result : Except Error Nat)
  | filled (result : Except Error Nat) (buffer : List UInt8)
  | word (result : Except Error UInt32)

namespace Device

variable {δ : Type}

/-- Carries out one operation. -/
def perform (driver : Driver δ) (registers : Registers δ) (operation : DeviceOperation)
    (device : Device δ) : DeviceAnswer × Device δ :=
  match operation with
  | .init =>
    let (result, device) := device.init driver
    (.result result, device)
  | .deinit =>
    let (result, device) := device.deinit driver
    (.result result, device)
  | .read buffer =>
    let (result, buffer, device) := device.read driver buffer
    (.filled result buffer, device)
  | .write bytes =>
    let (result, device) := device.write driver bytes
    (.count result, device)
  | .ioctl code argument =>
    let (result, device) := device.ioctl driver code argument
    (.word result, device)
  | .setIrq line =>
    let (result, device) := device.setIrq driver registers line
    (.result result, device)
  | .setControlWord word => (.done, { device with controlWord := word })
  | .storeStatus status => (.done, { device with status })

/-- Carries out operations one after the other and answers them in order. -/
def run (driver : Driver δ) (registers : Registers δ) :
    List DeviceOperation → Device δ → List DeviceAnswer × Device δ
  | [], device => ([], device)
  | operation :: rest, device =>
    let (answer, device) := device.perform driver registers operation
    let (answers, device) := run driver registers rest device
    (answer :: answers, device)

end Device

end Firmware
