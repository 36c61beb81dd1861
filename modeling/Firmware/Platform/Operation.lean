/-
  Firmware: the operations on a platform as data. A run of a system is a list of operations on its
  interrupt table and on its timer table, in any order.
-/
import Firmware.Interrupts.Operation
import Firmware.Platform
import Firmware.Timers.Operation

namespace Firmware

/-- What can be asked of a platform. -/
inductive PlatformOperation (κ η τ α : Type) where
  | interrupts (operation : InterruptOperation κ η α)
  | timers (operation : TimerOperation τ)

/-- What a platform answers. -/
inductive PlatformAnswer (η τ α : Type) where
  | interrupts (answer : InterruptAnswer η α)
  | timers (answer : TimerAnswer τ)

/-- A platform in a run. -/
structure PlatformRun (κ η τ : Type) where
  interrupts : InterruptRun κ η
  timers : TimerTable τ

namespace PlatformRun

variable {κ η τ α : Type}

/-- A run that begins on a platform. -/
def of (platform : Platform κ η τ) : PlatformRun κ η τ where
  interrupts := { table := platform.interrupts }
  timers := platform.timers

/-- The platform that a run has come to. -/
def platform (run : PlatformRun κ η τ) : Platform κ η τ where
  interrupts := run.interrupts.table
  timers := run.timers

variable [InterruptController κ]

/-- Carries out one operation. A fault stops the run. -/
def perform (run : PlatformRun κ η τ) :
    PlatformOperation κ η τ α → Except PortFault (PlatformAnswer η τ α) × PlatformRun κ η τ
  | .interrupts operation =>
    let (answer, interrupts) := run.interrupts.perform operation
    (answer.map .interrupts, { run with interrupts })
  | .timers operation =>
    let (answer, timers) := run.timers.perform operation
    (.ok (.timers answer), { run with timers })

/-- Carries out operations one after the other and answers them in order. -/
def performAll (run : PlatformRun κ η τ) :
    List (PlatformOperation κ η τ α) →
      Except PortFault (List (PlatformAnswer η τ α)) × PlatformRun κ η τ
  | [] => (.ok [], run)
  | operation :: rest =>
    match run.perform operation with
    | (.error fault, run) => (.error fault, run)
    | (.ok answer, run) =>
      match run.performAll rest with
      | (.ok answers, run) => (.ok (answer :: answers), run)
      | (.error fault, run) => (.error fault, run)

end PlatformRun

end Firmware
