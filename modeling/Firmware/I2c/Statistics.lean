/-
  Firmware: the counters of an I2C controller, kept transaction by transaction.
-/
import Firmware.I2c.Transaction

namespace Firmware.I2c

structure Statistics where
  transactions : Nat := 0
  starts : Nat := 0
  stops : Nat := 0
  timeouts : Nat := 0
  retries : Nat := 0
  /-- The phase of the latest transaction that failed. -/
  lastFailure : Option Phase := none
  deriving DecidableEq

namespace Statistics

/-- Counts what a finished transaction did on the bus. One that found the bus held generated
neither START nor STOP, every other one generated both. -/
def countConditions (statistics : Statistics) : Outcome → Statistics
  | .error .busFree => statistics
  | _ => { statistics with starts := statistics.starts + 1, stops := statistics.stops + 1 }

/-- Counts a finished transaction. A failure is always a wait that ran out. -/
def count (statistics : Statistics) (outcome : Outcome) : Statistics :=
  let counted := statistics.countConditions outcome
  let counted := { counted with transactions := counted.transactions + 1 }
  match outcome with
  | .ok () => counted
  | .error phase => { counted with timeouts := counted.timeouts + 1, lastFailure := some phase }

/-- Counts an attempt that is made again. -/
def countRetry (statistics : Statistics) : Statistics :=
  { statistics with retries := statistics.retries + 1 }

end Statistics

end Firmware.I2c
