/-
  Firmware: drivers. A driver is a record of capabilities over a state `δ`, which holds all that
  the driver can reach. A call sees the status of the device and may store another one, as an
  interrupt handler would; it answers with a result, the status, its state and what it reported.
-/
import Firmware.Device.Basic
import Firmware.Journal

namespace Firmware

/-- What a call of a driver leaves behind. -/
structure DriverReply (δ α : Type) where
  result : Except Error α
  /-- The status of the device when the call returns. -/
  status : DeviceStatus
  state : δ
  /-- What the driver reported, in order. -/
  records : List Record := []

/-- The capabilities of a driver. Without its own, starting and stopping succeed with no effect,
and the other operations are not supported. -/
structure Driver (δ : Type) where
  kind : δ → DeviceKind
  /-- Brings the hardware to a known state. -/
  init : DeviceStatus → δ → DriverReply δ Unit := fun status state =>
    { result := .ok (), status, state }
  /-- Releases the hardware. -/
  deinit : DeviceStatus → δ → DriverReply δ Unit := fun status state =>
    { result := .ok (), status, state }
  /-- Reads into a buffer, which comes back as it is left, and answers how many bytes. -/
  read : List UInt8 → DeviceStatus → δ → List UInt8 × DriverReply δ Nat :=
    fun buffer status state => (buffer, { result := .error .unsupported, status, state })
  /-- Writes bytes and answers how many. -/
  write : List UInt8 → DeviceStatus → δ → DriverReply δ Nat := fun _ status state =>
    { result := .error .unsupported, status, state }
  /-- Carries out a command with an argument. -/
  ioctl : DeviceCommand → UInt32 → DeviceStatus → δ → DriverReply δ UInt32 :=
    fun _ _ status state => { result := .error .unsupported, status, state }

/-- A driver with no capability but its kind. -/
def Driver.bare {δ : Type} (kind : DeviceKind) : Driver δ where
  kind _ := kind

end Firmware
