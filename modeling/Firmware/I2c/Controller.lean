/-
  Firmware: the I2C controller. It runs transactions on hardware at the base of its
  configuration, counts them and reports what it does. Retries restart a transaction from its
  first byte; a scan probes every address with an empty write.
-/
import Firmware.I2c.Config
import Firmware.I2c.Statistics
import Firmware.Journal

namespace Firmware.I2c

/-- A controller over hardware with states `σ`. -/
structure Controller (σ : Type) where
  config : Config
  bus : σ
  statistics : Statistics := {}
  journal : Journal := .empty

/-- What a controller reports. -/
inductive BusNote where
  | started (base : UInt64) (hz : UInt32)
  | stopped (base : UInt64)
  | speedSet (speed : Speed) (hz : UInt32)
  | oddSpeedSet (hz : UInt32)
  | began (direction : Direction) (address : Address) (length : Nat)
  | ranOut (phase : Phase)
  | exchangeFailed (direction : Direction) (address : Address)
  | noAttempts
  | attemptFailed (attempt limit : Nat) (error : Error)
  | found (count : Nat)

namespace BusNote

/-- An address as it is shown. -/
def addressText (address : Address) : String := Numeral.hex 2 address.value.toNat

def record : BusNote → Record
  | .started base hz =>
    ⟨.info, s!"i2c@{Numeral.hex 0 base.toNat}: init, clock {hz.toNat} Hz"⟩
  | .stopped base => ⟨.info, s!"i2c@{Numeral.hex 0 base.toNat}: deinit"⟩
  | .speedSet speed hz => ⟨.info, s!"i2c: speed {speed.name} ({hz.toNat} Hz)"⟩
  | .oddSpeedSet hz => ⟨.warn, s!"i2c: non-standard speed {hz.toNat} Hz"⟩
  | .began direction address length =>
    ⟨.debug, s!"i2c: {direction.name} {addressText address}, {length} byte(s)"⟩
  | .ranOut phase => ⟨.debug, s!"i2c: {Error.timeout.message} in {phase.name}"⟩
  | .exchangeFailed .write address =>
    ⟨.warn, s!"i2c: send to {addressText address} failed: {Error.timeout.message}"⟩
  | .exchangeFailed .read address =>
    ⟨.warn, s!"i2c: receive from {addressText address} failed: {Error.timeout.message}"⟩
  | .noAttempts => ⟨.warn, "i2c: retry wrapper called with zero attempts"⟩
  | .attemptFailed attempt limit error =>
    ⟨.warn, s!"i2c: attempt {attempt}/{limit} failed: {error.message}"⟩
  | .found count => ⟨.info, s!"i2c: scan found {count} device(s)"⟩

end BusNote

namespace Controller

variable {σ : Type}

/-- A controller that has not touched its hardware. -/
def create (config : Config) (bus : σ) : Controller σ := { config, bus }

def note (c : Controller σ) (n : BusNote) : Controller σ :=
  { c with journal := c.journal.add n.record }

/-- The hardware of a controller, addressed by offsets from its base. -/
def window (c : Controller σ) (hardware : Hardware σ) : Hardware σ :=
  hardware.window c.config.baseAddress

/-- Zeroes the counters. -/
def resetStatistics (c : Controller σ) : Controller σ := { c with statistics := {} }

/-- Reads a register of the controller. -/
def readRegisterAt (hardware : Hardware σ) (offset : UInt64) (c : Controller σ) :
    UInt32 × Controller σ :=
  let (word, bus) := (c.window hardware).read offset c.bus
  (word, { c with bus })

/-- Sets the default clock rate and acknowledges received bytes from now on. -/
def init (hardware : Hardware σ) (c : Controller σ) : Controller σ :=
  let registers := c.window hardware
  let c := c.note (.started c.config.baseAddress c.config.defaultSpeedHz)
  let bus := registers.write clockOffset c.config.defaultSpeedHz c.bus
  { c with bus := registers.setBits controlOffset ackBit bus }

/-- Stops acknowledging received bytes. -/
def deinit (hardware : Hardware σ) (c : Controller σ) : Controller σ :=
  let registers := c.window hardware
  let c := c.note (.stopped c.config.baseAddress)
  { c with bus := registers.clearBits controlOffset ackBit c.bus }

/-- Sets the clock rate, also one for which the timing of the bus is not defined. -/
def setSpeed (hardware : Hardware σ) (hz : UInt32) (c : Controller σ) : Controller σ :=
  let c := c.note (match Speed.ofHz? hz with
    | some speed => .speedSet speed hz
    | none => .oddSpeedSet hz)
  { c with bus := (c.window hardware).write clockOffset hz c.bus }

/-- Runs a transaction and counts it. A failed one ran out of its budget. -/
def execute (hardware : Hardware σ) (t : Transaction) (c : Controller σ) :
    Except Error Unit × Payload × Controller σ :=
  let c := c.note (.began t.payload.direction t.address t.payload.length)
  let (outcome, payload, bus) := t.run (c.window hardware) c.bus
  let c := { c with bus, statistics := c.statistics.count outcome }
  match outcome with
  | .ok () => (.ok (), payload, c)
  | .error phase => (.error .timeout, payload, c.note (.ranOut phase))

/-- Moves a payload to or from an address in one transaction. -/
def exchange (hardware : Hardware σ) (address : UInt8) (payload : Payload) (c : Controller σ) :
    Except Error Unit × Payload × Controller σ :=
  match Address.ofByte address with
  | .error e => (.error e, payload, c)
  | .ok address =>
    let t : Transaction := { address, payload, budget := c.config.timeoutBudget.toNat }
    match c.execute hardware t with
    | (.ok (), payload, c) => (.ok (), payload, c)
    | (.error e, payload, c) =>
      (.error e, payload, c.note (.exchangeFailed payload.direction address))

/-- Makes the attempts of a repeated exchange that are left of `limit`. -/
def attempts (hardware : Hardware σ) (limit : Nat) (address : UInt8) :
    (remaining : Nat) → Payload → Controller σ → Except Error Unit × Payload × Controller σ
  | 0, payload, c => (.error .failed, payload, c)
  | remaining + 1, payload, c =>
    match c.exchange hardware address payload with
    | (.ok (), payload, c) => (.ok (), payload, c)
    | (.error e, payload, c) =>
      let c := c.note (.attemptFailed (limit - remaining) limit e)
      let c :=
        if remaining = 0 then c else { c with statistics := c.statistics.countRetry }
      attempts hardware limit address remaining payload c

/-- Repeats an exchange until it succeeds, at most `limit` times; without a success it has
failed. -/
def exchangeWithRetries (hardware : Hardware σ) (limit : Nat) (address : UInt8)
    (payload : Payload) (c : Controller σ) : Except Error Unit × Payload × Controller σ :=
  match Address.ofByte address with
  | .error e => (.error e, payload, c)
  | .ok _ =>
    if limit = 0 then (.error .failed, payload, c.note .noAttempts)
    else c.attempts hardware limit address limit payload

/-- Sends bytes to an address. -/
def send (hardware : Hardware σ) (address : UInt8) (bytes : List UInt8) (c : Controller σ) :
    Except Error Unit × Controller σ :=
  let (result, _, c) := c.exchange hardware address (.write bytes)
  (result, c)

/-- Fills a buffer from an address. -/
def receive (hardware : Hardware σ) (address : UInt8) (buffer : List UInt8) (c : Controller σ) :
    Except Error Unit × List UInt8 × Controller σ :=
  let (result, payload, c) := c.exchange hardware address (.read buffer)
  (result, payload.buffer, c)

/-- Sends bytes to an address, in at most `limit` attempts. -/
def sendWithRetries (hardware : Hardware σ) (address : UInt8) (bytes : List UInt8) (limit : Nat)
    (c : Controller σ) : Except Error Unit × Controller σ :=
  let (result, _, c) := c.exchangeWithRetries hardware limit address (.write bytes)
  (result, c)

/-- Fills a buffer from an address, in at most `limit` attempts. -/
def receiveWithRetries (hardware : Hardware σ) (address : UInt8) (buffer : List UInt8)
    (limit : Nat) (c : Controller σ) : Except Error Unit × List UInt8 × Controller σ :=
  let (result, payload, c) := c.exchangeWithRetries hardware limit address (.read buffer)
  (result, payload.buffer, c)

/-- Writes a value into a register of a peripheral. -/
def writeRegister (hardware : Hardware σ) (address register value : UInt8) (c : Controller σ) :
    Except Error Unit × Controller σ :=
  c.send hardware address [register, value]

/-- Reads a register of a peripheral: one transaction names it and another one reads it. -/
def readRegister (hardware : Hardware σ) (address register : UInt8) (c : Controller σ) :
    Except Error UInt8 × Controller σ :=
  match c.send hardware address [register] with
  | (.error e, c) => (.error e, c)
  | (.ok (), c) =>
    match c.receive hardware address [0] with
    | (.error e, _, c) => (.error e, c)
    | (.ok (), buffer, c) => (.ok (buffer.headD 0), c)

/-- Probes addresses with an empty write and answers those that acknowledge it, in order. -/
def probe (hardware : Hardware σ) : List Address → Controller σ → List Address × Controller σ
  | [], c => ([], c)
  | address :: rest, c =>
    let t : Transaction :=
      { address, payload := .write [], budget := c.config.scanTimeoutBudget.toNat }
    let (result, _, c) := c.execute hardware t
    let (present, c) := probe hardware rest c
    (match result with
      | .ok () => address :: present
      | .error _ => present, c)

/-- Probes every address and answers those that acknowledge, in ascending order. -/
def scan (hardware : Hardware σ) (c : Controller σ) : List Address × Controller σ :=
  let (present, c) := c.probe hardware Address.all
  (present, c.note (.found present.length))

end Controller

end Firmware.I2c
