/-
  Firmware: a simulated I2C controller, down to its registers, with peripherals that hold 256
  bytes and a pointer. The first byte written to a peripheral sets its pointer; further bytes
  are stored there and reads are answered from there, and each moves the pointer on. An address
  that no attached peripheral has is never acknowledged. The bus can be held, acknowledgments
  withheld, and the whole controller stalled.
-/
import Firmware.I2c.RegisterMap
import Firmware.Registers.Basic

namespace Firmware.I2c

/-- How many bytes a simulated peripheral holds. -/
def memorySize : Nat := 256

/-- A peripheral with byte memory. -/
@[ext]
structure Peripheral where
  memory : Vector UInt8 memorySize := Vector.replicate memorySize 0
  /-- Where the next byte is stored or read. -/
  pointer : UInt8 := 0
  deriving DecidableEq

namespace Peripheral

/-- Stores a byte at the pointer and moves the pointer on. -/
def store (p : Peripheral) (byte : UInt8) : Peripheral where
  memory := p.memory.set p.pointer.toNat byte p.pointer.toNat_lt
  pointer := p.pointer + 1

/-- The byte at the pointer. -/
def current (p : Peripheral) : UInt8 := p.memory.get ⟨p.pointer.toNat, p.pointer.toNat_lt⟩

/-- Moves the pointer on. -/
def advance (p : Peripheral) : Peripheral := { p with pointer := p.pointer + 1 }

/-- Puts a byte into the slot with an index, counted around the end of the memory. -/
def put (p : Peripheral) (index : Nat) (byte : UInt8) : Peripheral :=
  { p with memory := p.memory.set (index % memorySize) byte (Nat.mod_lt _ (by decide)) }

/-- Puts bytes into the slots from `offset` on. -/
def load (p : Peripheral) (offset : UInt8) (bytes : List UInt8) : Peripheral :=
  bytes.zipIdx.foldl (fun p (byte, i) => p.put (offset.toNat + i) byte) p

end Peripheral

/-- What the next data byte means. -/
inductive BusState where
  | idle
  /-- After START: the opening byte. -/
  | awaitAddress
  /-- A byte for a peripheral: its pointer first, then data. -/
  | writing (address : UInt8) (pointerSet : Bool)
  /-- A byte from a peripheral. -/
  | reading (address : UInt8)
  /-- Nobody acknowledged the opening byte. -/
  | ignored
  deriving DecidableEq

structure Simulator where
  base : UInt64
  control : UInt32 := 0
  clock : UInt32 := 0
  /-- Whether the last byte was transferred. -/
  done : Bool := false
  state : BusState := .idle
  /-- What the data register holds. -/
  lastData : UInt32 := 0
  peripherals : Vector (Option Peripheral) 256 := Vector.replicate 256 none
  /-- For how many more looks at the status the bus is held. -/
  heldReads : Nat := 0
  /-- How many more opening bytes are not acknowledged. -/
  nacks : Nat := 0
  stalled : Bool := false
  starts : Nat := 0
  stops : Nat := 0
  statusReads : Nat := 0
  /-- The bytes written to the data register, the latest one first. -/
  latestDataWrites : List UInt8 := []

namespace Simulator

/-- A controller at `base` with no peripheral attached. -/
def create (base : UInt64) : Simulator := { base }

/-- The peripheral attached at an address. -/
def peripheral? (sim : Simulator) (address : UInt8) : Option Peripheral :=
  sim.peripherals.get ⟨address.toNat, address.toNat_lt⟩

/-- Puts a peripheral, or none, at an address. -/
def place (sim : Simulator) (address : UInt8) (p : Option Peripheral) : Simulator :=
  { sim with peripherals := sim.peripherals.set address.toNat p address.toNat_lt }

/-- The bytes written to the data register, in order. -/
def dataWrites (sim : Simulator) : List UInt8 := sim.latestDataWrites.reverse

/-! ## Handling the bus -/

/-- Attaches a peripheral with zeroed memory. -/
def attach (sim : Simulator) (address : UInt8) : Simulator := sim.place address (some {})

def detach (sim : Simulator) (address : UInt8) : Simulator := sim.place address none

/-- Stores bytes in the memory of an attached peripheral from `offset` on. -/
def load (sim : Simulator) (address offset : UInt8) (bytes : List UInt8) : Simulator :=
  match sim.peripheral? address with
  | some p => sim.place address (some (p.load offset bytes))
  | none => sim

/-- Holds the bus for the next `reads` looks at the status. -/
def holdBus (sim : Simulator) (reads : Nat) : Simulator := { sim with heldReads := reads }

/-- Leaves the next `count` opening bytes of attached peripherals unacknowledged. -/
def nackNext (sim : Simulator) (count : Nat) : Simulator := { sim with nacks := count }

/-- Whether Done is never reported. -/
def stall (sim : Simulator) (stalled : Bool) : Simulator := { sim with stalled }

/-- Whether received bytes are acknowledged. -/
def ackEnabled (sim : Simulator) : Bool := sim.control &&& ackBit != 0

/-- Zeroes the counters and forgets the bytes written. -/
def clearCounters (sim : Simulator) : Simulator :=
  { sim with starts := 0, stops := 0, statusReads := 0, latestDataWrites := [] }

/-! ## Registers -/

/-- A look at the status uses up one held read. -/
def readStatus (sim : Simulator) : UInt32 × Simulator :=
  let flags : StatusFlags := { busy := 0 < sim.heldReads, done := sim.done && !sim.stalled }
  (flags.toWord,
    { sim with statusReads := sim.statusReads + 1, heldReads := sim.heldReads - 1 })

/-- START and STOP take effect in this order and clear themselves; the acknowledge bit stays. -/
def writeControl (sim : Simulator) (word : UInt32) : Simulator :=
  let flags := ControlFlags.ofWord word
  let sim :=
    if flags.start then
      { sim with starts := sim.starts + 1, done := false, state := .awaitAddress }
    else sim
  let sim :=
    if flags.stop then { sim with stops := sim.stops + 1, done := false, state := .idle }
    else sim
  { sim with control := word &&& ackBit }

/-- The opening byte of a transfer. -/
def openTransfer (sim : Simulator) (byte : UInt8) : Simulator :=
  let address := byte >>> 1
  match sim.peripheral? address with
  | none => { sim with done := false, state := .ignored }
  | some _ =>
    if 0 < sim.nacks then
      { sim with nacks := sim.nacks - 1, done := false, state := .ignored }
    else if byte &&& 1 != 0 then { sim with done := true, state := .reading address }
    else { sim with done := true, state := .writing address false }

/-- A byte for the peripheral that is written to, if it is still attached. -/
def storeByte (sim : Simulator) (address : UInt8) (pointerSet : Bool) (byte : UInt8) :
    Simulator :=
  let sim :=
    match sim.peripheral? address with
    | some p =>
      sim.place address (some (if pointerSet then p.store byte else { p with pointer := byte }))
    | none => sim
  { sim with done := true, state := .writing address true }

def writeData (sim : Simulator) (word : UInt32) : Simulator :=
  let byte := word.toUInt8
  let sim :=
    { sim with latestDataWrites := byte :: sim.latestDataWrites, lastData := word }
  match sim.state with
  | .awaitAddress => sim.openTransfer byte
  | .writing address pointerSet => sim.storeByte address pointerSet byte
  | .idle | .reading _ | .ignored => { sim with done := false }

/-- Reads of a peripheral are answered from its memory; otherwise the register keeps what it
holds. -/
def readData (sim : Simulator) : UInt32 × Simulator :=
  match sim.state with
  | .reading address =>
    match sim.peripheral? address with
    | some p =>
      let word := p.current.toUInt32
      (word, { sim.place address (some p.advance) with lastData := word })
    | none => (sim.lastData, sim)
  | _ => (sim.lastData, sim)

/-- The simulated controller as a register back end. Addresses outside its window read as zero
and ignore writes. -/
def registers : Registers Simulator where
  read address sim :=
    let offset := address - sim.base
    if offset = statusOffset then sim.readStatus
    else if offset = controlOffset then (sim.control, sim)
    else if offset = dataOffset then sim.readData
    else if offset = clockOffset then (sim.clock, sim)
    else (0, sim)
  write address word sim :=
    let offset := address - sim.base
    if offset = controlOffset then sim.writeControl word
    else if offset = dataOffset then sim.writeData word
    else if offset = clockOffset then { sim with clock := word }
    else sim

end Simulator

end Firmware.I2c
