/-
  Firmware: what devices have in common: a status, a kind, and the command codes that are
  decoded before a driver sees them.
-/
import Firmware.Error

namespace Firmware

/-- Whether a device can take an operation. -/
inductive DeviceStatus where
  | idle
  /-- An operation is in flight. -/
  | busy
  /-- The last operation failed. -/
  | error
  deriving DecidableEq

/-- The name of a status as it is shown. -/
def DeviceStatus.name : DeviceStatus → String
  | .idle => "Idle"
  | .busy => "Busy"
  | .error => "Error"

/-- The kind of peripheral behind a device. -/
inductive DeviceKind where
  | unknown
  | i2c
  | uart
  | spi
  | gpio
  | timer
  /-- A device with a register for its own interrupt vector. -/
  | interruptCapable
  deriving DecidableEq

/-- The name of a kind as it is shown. -/
def DeviceKind.name : DeviceKind → String
  | .unknown => "Unknown"
  | .i2c => "I2c"
  | .uart => "Uart"
  | .spi => "Spi"
  | .gpio => "Gpio"
  | .timer => "Timer"
  | .interruptCapable => "InterruptCapable"

/-- Every kind of peripheral. -/
def DeviceKind.all : List DeviceKind :=
  [.unknown, .i2c, .uart, .spi, .gpio, .timer, .interruptCapable]

/-- The commands that every driver is asked in the same words; their meaning is the driver's. -/
inductive DeviceCommand where
  | reset
  | setSpeed
  | enableIrq
  | disableIrq
  deriving DecidableEq

namespace DeviceCommand

/-- The name of a command as it is shown. -/
def name : DeviceCommand → String
  | .reset => "Reset"
  | .setSpeed => "SetSpeed"
  | .enableIrq => "EnableIrq"
  | .disableIrq => "DisableIrq"

/-- The code of a command. -/
def code : DeviceCommand → UInt32
  | .reset => 1
  | .setSpeed => 2
  | .enableIrq => 3
  | .disableIrq => 4

/-- The command with a code. -/
def ofCode (code : UInt32) : Except Error DeviceCommand :=
  if code = 1 then .ok .reset
  else if code = 2 then .ok .setSpeed
  else if code = 3 then .ok .enableIrq
  else if code = 4 then .ok .disableIrq
  else .error .unsupported

theorem ofCode_code (command : DeviceCommand) : ofCode command.code = .ok command := by
  cases command <;> rfl

end DeviceCommand

end Firmware
