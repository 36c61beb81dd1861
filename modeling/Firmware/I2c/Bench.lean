/-
  Firmware: the bench, on which controllers are tried. Its back end is a simulated controller or
  a register file with prepared answers. Handlings of the back end can be done between the
  operations of a controller, or be planned for certain calls of the relax hook.
-/
import Firmware.I2c.Simulator
import Firmware.Registers.Hardware
import Firmware.Registers.Queued

namespace Firmware.I2c

/-- The back end of a bench. -/
inductive Backend where
  | simulated (sim : Simulator)
  | file (queued : QueuedFile)

namespace Backend

def registers : Registers Backend where
  read address
    | .simulated sim =>
      let (value, sim) := Simulator.registers.read address sim
      (value, .simulated sim)
    | .file queued =>
      let (value, queued) := QueuedFile.registers.read address queued
      (value, .file queued)
  write address value
    | .simulated sim => .simulated (Simulator.registers.write address value sim)
    | .file queued => .file (QueuedFile.registers.write address value queued)

end Backend

/-- A handling of a back end. Those that the back end at hand does not know do nothing. -/
inductive Handling where
  | read (address : UInt64)
  | write (address : UInt64) (value : UInt32)
  | attach (address : UInt8)
  | detach (address : UInt8)
  | load (address offset : UInt8) (bytes : List UInt8)
  | holdBus (reads : Nat)
  | nackNext (count : Nat)
  | stall (stalled : Bool)
  | clearCounters
  | preset (address : UInt64) (value : UInt32)
  | prepare (address : UInt64) (values : List UInt32)
  | clearAccesses

namespace Handling

/-- The effect of a handling on a simulated controller. -/
def onSimulator (handling : Handling) (sim : Simulator) : Simulator :=
  match handling with
  | .attach address => sim.attach address
  | .detach address => sim.detach address
  | .load address offset bytes => sim.load address offset bytes
  | .holdBus reads => sim.holdBus reads
  | .nackNext count => sim.nackNext count
  | .stall stalled => sim.stall stalled
  | .clearCounters => sim.clearCounters
  | _ => sim

/-- The effect of a handling on a register file with prepared answers. -/
def onFile (handling : Handling) (queued : QueuedFile) : QueuedFile :=
  match handling with
  | .preset address value => { queued with file := queued.file.preset address value }
  | .prepare address values => queued.prepare address values
  | .clearAccesses => { queued with file := queued.file.clear }
  | _ => queued

/-- The effect of a handling; a direct read also has an answer. -/
def perform (handling : Handling) (backend : Backend) : Option UInt32 × Backend :=
  match handling with
  | .read address =>
    let (value, backend) := Backend.registers.read address backend
    (some value, backend)
  | .write address value => (none, Backend.registers.write address value backend)
  | _ =>
    match backend with
    | .simulated sim => (none, .simulated (handling.onSimulator sim))
    | .file queued => (none, .file (handling.onFile queued))

end Handling

/-- A back end with a relax hook that counts its calls and handles the back end at some. -/
structure Bench where
  backend : Backend
  /-- How often the hook was called. -/
  relaxes : Nat := 0
  /-- What the hook does at which of its calls, the first call being number one. -/
  plan : List (Nat × Handling) := []

namespace Bench

/-- Handles the back end of a bench. -/
def handle (bench : Bench) (handling : Handling) : Option UInt32 × Bench :=
  let (answer, backend) := handling.perform bench.backend
  (answer, { bench with backend })

/-- One call of the hook. -/
def relax (bench : Bench) : Bench :=
  let bench := { bench with relaxes := bench.relaxes + 1 }
  bench.plan.foldl
    (fun b (call, handling) => if call = bench.relaxes then (b.handle handling).2 else b) bench

def hardware : Hardware Bench where
  toRegisters := Backend.registers.within Bench.backend fun backend bench =>
    { bench with backend }
  relax := relax

end Bench

end Firmware.I2c
