/-
  Firmware: the operations of an I2C controller as data, so that a run is a list of them.
-/
import Firmware.I2c.Console.Run

namespace Firmware.I2c

/-- What can be asked of a controller. -/
inductive Operation where
  | init
  | deinit
  | setSpeed (hz : UInt32)
  | send (address : UInt8) (bytes : List UInt8)
  | receive (address : UInt8) (buffer : List UInt8)
  | sendWithRetries (address : UInt8) (bytes : List UInt8) (limit : Nat)
  | receiveWithRetries (address : UInt8) (buffer : List UInt8) (limit : Nat)
  | writeRegister (address register value : UInt8)
  | readRegister (address register : UInt8)
  | scan
  | execute (transaction : Transaction)
  | resetStatistics
  /-- A register of the controller itself, as it reads. -/
  | readRegisterAt (offset : UInt64)
  | dumpRegisters
  | command (command : Console.Command)

/-- What a controller answers. -/
inductive Answer where
  | done
  | result (result : Except Error Unit)
  | filled (result : Except Error Unit) (buffer : List UInt8)
  | byte (result : Except Error UInt8)
  | present (addresses : List Address)
  | word (value : UInt32)
  | dump (dump : Console.RegisterDump)
  | report (result : Except Error Console.Report)

namespace Controller

variable {σ : Type}

/-- Carries out one operation. -/
def perform (hardware : Hardware σ) (operation : Operation) (c : Controller σ) :
    Answer × Controller σ :=
  match operation with
  | .init => (.done, c.init hardware)
  | .deinit => (.done, c.deinit hardware)
  | .setSpeed hz => (.done, c.setSpeed hardware hz)
  | .send address bytes =>
    let (result, c) := c.send hardware address bytes
    (.result result, c)
  | .receive address buffer =>
    let (result, buffer, c) := c.receive hardware address buffer
    (.filled result buffer, c)
  | .sendWithRetries address bytes limit =>
    let (result, c) := c.sendWithRetries hardware address bytes limit
    (.result result, c)
  | .receiveWithRetries address buffer limit =>
    let (result, buffer, c) := c.receiveWithRetries hardware address buffer limit
    (.filled result buffer, c)
  | .writeRegister address register value =>
    let (result, c) := c.writeRegister hardware address register value
    (.result result, c)
  | .readRegister address register =>
    let (result, c) := c.readRegister hardware address register
    (.byte result, c)
  | .scan =>
    let (present, c) := c.scan hardware
    (.present present, c)
  | .execute transaction =>
    let (result, payload, c) := c.execute hardware transaction
    (.filled result payload.buffer, c)
  | .resetStatistics => (.done, c.resetStatistics)
  | .readRegisterAt offset =>
    let (word, c) := c.readRegisterAt hardware offset
    (.word word, c)
  | .dumpRegisters =>
    let (dump, c) := Console.dumpRegisters hardware c
    (.dump dump, c)
  | .command command =>
    let (result, c) := command.run hardware c
    (.report result, c)

/-- Carries out operations one after the other and answers them in order. -/
def run (hardware : Hardware σ) : List Operation → Controller σ → List Answer × Controller σ
  | [], c => ([], c)
  | operation :: rest, c =>
    let (answer, c) := c.perform hardware operation
    let (answers, c) := run hardware rest c
    (answer :: answers, c)

end Controller

end Firmware.I2c
