/-
  Firmware: I2C transactions. One START-to-STOP exchange waits until the bus is free, asserts
  START, sends the opening byte and then moves the data bytes, with a bounded wait for each of
  them. Once START was asserted STOP follows on every path. All addresses here are offsets in
  the window of a controller.
-/
import Firmware.I2c.Address
import Firmware.I2c.RegisterMap
import Firmware.Polling
import Firmware.Registers.Hardware

namespace Firmware.I2c

/-- The parts of a transaction. -/
inductive Phase where
  | busFree
  | start
  | addressPhase
  | dataPhase
  | stop
  deriving DecidableEq

/-- The name of a phase as it is shown. -/
def Phase.name : Phase → String
  | .busFree => "BusFree"
  | .start => "Start"
  | .addressPhase => "AddressPhase"
  | .dataPhase => "DataPhase"
  | .stop => "Stop"

/-- The data bytes of a transaction: bytes to send, or a buffer to fill. -/
inductive Payload where
  | write (bytes : List UInt8)
  | read (buffer : List UInt8)
  deriving DecidableEq

namespace Payload

def direction : Payload → Direction
  | .write _ => .write
  | .read _ => .read

/-- How many data bytes there are. -/
def length : Payload → Nat
  | .write bytes => bytes.length
  | .read buffer => buffer.length

/-- The buffer of a read; a write has none. -/
def buffer : Payload → List UInt8
  | .write _ => []
  | .read buffer => buffer

end Payload

/-- One exchange with a single peripheral. -/
structure Transaction where
  address : Address
  payload : Payload
  /-- Looks at the status allowed per wait. -/
  budget : Nat
  deriving DecidableEq

/-- A transaction succeeds, or the wait of some phase runs out of its budget. -/
abbrev Outcome := Except Phase Unit

variable {σ : Type}

/-- Looks at the status until `ready` holds of it, at most `budget` times. -/
def awaitStatus (hardware : Hardware σ) (budget : Nat) (ready : StatusFlags → Bool) :
    σ → Except Error Nat × σ :=
  let look (s : σ) : Bool × σ :=
    let (word, s) := hardware.read statusOffset s
    (ready (.ofWord word), s)
  pollUntil budget look hardware.relax

/-- Waits until no other transfer holds the bus. -/
def awaitFree (hardware : Hardware σ) (budget : Nat) : σ → Except Error Nat × σ :=
  awaitStatus hardware budget (fun flags => !flags.busy)

/-- Waits until a byte was transferred. -/
def awaitDone (hardware : Hardware σ) (budget : Nat) : σ → Except Error Nat × σ :=
  awaitStatus hardware budget (fun flags => flags.done)

/-- Sends a byte and waits until it was transferred. -/
def sendByte (hardware : Hardware σ) (budget : Nat) (byte : UInt8) (s : σ) :
    Except Error Nat × σ :=
  awaitDone hardware budget (hardware.write dataOffset byte.toUInt32 s)

/-- Sends bytes one after the other. -/
def sendBytes (hardware : Hardware σ) (budget : Nat) : List UInt8 → σ → Outcome × σ
  | [], s => (.ok (), s)
  | byte :: rest, s =>
    match sendByte hardware budget byte s with
    | (.error _, s) => (.error .dataPhase, s)
    | (.ok _, s) => sendBytes hardware budget rest s

/-- Fills a buffer from its start, waiting for each byte; what is not reached stays. -/
def fillBuffer (hardware : Hardware σ) (budget : Nat) :
    List UInt8 → σ → Outcome × List UInt8 × σ
  | [], s => (.ok (), [], s)
  | old :: rest, s =>
    match awaitDone hardware budget s with
    | (.error _, s) => (.error .dataPhase, old :: rest, s)
    | (.ok _, s) =>
      let (word, s) := hardware.read dataOffset s
      let (outcome, filled, s) := fillBuffer hardware budget rest s
      (outcome, word.toUInt8 :: filled, s)

/-- Moves the data bytes. -/
def moveData (hardware : Hardware σ) (budget : Nat) : Payload → σ → Outcome × Payload × σ
  | .write bytes, s =>
    let (outcome, s) := sendBytes hardware budget bytes s
    (outcome, .write bytes, s)
  | .read buffer, s =>
    let (outcome, buffer, s) := fillBuffer hardware budget buffer s
    (outcome, .read buffer, s)

namespace Transaction

/-- Sends the opening byte and moves the data bytes. -/
def transfer (t : Transaction) (hardware : Hardware σ) (s : σ) : Outcome × Payload × σ :=
  match sendByte hardware t.budget (t.address.openingByte t.payload.direction) s with
  | (.error _, s) => (.error .addressPhase, t.payload, s)
  | (.ok _, s) => moveData hardware t.budget t.payload s

/-- Runs a transaction through every phase. The payload comes back as it is left. -/
def run (t : Transaction) (hardware : Hardware σ) (s : σ) : Outcome × Payload × σ :=
  match awaitFree hardware t.budget s with
  | (.error _, s) => (.error .busFree, t.payload, s)
  | (.ok _, s) =>
    let s := hardware.setBits controlOffset startBit s
    let (outcome, payload, s) := t.transfer hardware s
    (outcome, payload, hardware.setBits controlOffset stopBit s)

end Transaction

end Firmware.I2c
