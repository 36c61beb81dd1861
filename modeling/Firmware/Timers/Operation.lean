/-
  Firmware: the operations on a timer table as data, so that a run can have them between others.
  Callbacks are named by `τ`.
-/
import Firmware.Timers

namespace Firmware

/-- What can be asked of a timer table. -/
inductive TimerOperation (τ : Type) where
  | start (interval : UInt32) (callback : τ)
  | stop (id : TimerId)
  | stopAll
  | isActive (id : TimerId)
  | activeCount
  | tick
  | advance (now : UInt64)

/-- What a timer table answers. -/
inductive TimerAnswer (τ : Type) where
  | done
  | started (result : Except Error TimerId)
  | active (active : Bool)
  | count (count : Nat)
  | fired (fired : Fired τ)

/-- Carries out one operation. -/
def TimerTable.perform {τ : Type} (table : TimerTable τ) :
    TimerOperation τ → TimerAnswer τ × TimerTable τ
  | .start interval callback =>
    let (result, table) := table.start interval callback
    (.started result, table)
  | .stop id => (.done, table.stop id)
  | .stopAll => (.done, table.stopAll)
  | .isActive id => (.active (table.isActive id), table)
  | .activeCount => (.count table.activeCount, table)
  | .tick =>
    let (fired, table) := table.tick
    (.fired fired, table)
  | .advance now =>
    let (fired, table) := table.advance now
    (.fired fired, table)

/-- Carries out operations one after the other and answers them in order. -/
def TimerTable.performAll {τ : Type} (table : TimerTable τ) :
    List (TimerOperation τ) → List (TimerAnswer τ) × TimerTable τ
  | [] => ([], table)
  | operation :: rest =>
    let (answer, table) := table.perform operation
    let (answers, table) := table.performAll rest
    (answer :: answers, table)

end Firmware
