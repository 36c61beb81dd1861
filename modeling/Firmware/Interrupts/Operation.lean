/-
  Firmware: the operations on an interrupt table as data, critical sections included, so that a
  run is a tree of them. What a caller does to the controller itself is part of a run, with
  answers in `α`.
-/
import Firmware.Interrupts.Table

namespace Firmware

/-- What can be asked of an interrupt table over a controller with states `κ`. -/
inductive InterruptOperation (κ η α : Type) where
  | register (line : Nat) (handler : η) (context : UInt64) (priority : UInt32)
  | remove (line : Nat)
  | dispatch (line : Nat)
  | enable (line : Nat)
  | disable (line : Nat)
  | save
  /-- Writes a global state back; without one, that of the latest `save`, at first zero. -/
  | restore (flags : Option UInt64)
  | descriptor (line : Nat)
  | registeredLines
  | controller (act : κ → Except PortFault α × κ)
  | critical (body : List (InterruptOperation κ η α))

/-- What an interrupt table answers. -/
inductive InterruptAnswer (η α : Type) where
  | done
  | result (result : Except Error Unit)
  | dispatched (dispatch : Dispatch η)
  | flags (word : UInt64)
  | descriptor (descriptor : Option (Descriptor η))
  | lines (lines : List Nat)
  | controller (answer : α)
  /-- The answers of a critical section, each with whether interrupts were taken after it. -/
  | critical (answers : List (InterruptAnswer η α × Bool))

/-- An interrupt table in a run. -/
structure InterruptRun (κ η : Type) where
  table : InterruptTable κ η
  /-- What the latest `save` answered. -/
  lastSave : UInt64 := 0
  /-- The calls made so far, the latest one first. -/
  latestCalls : List (η × UInt64) := []

namespace InterruptRun

variable {κ η α : Type} [InterruptController κ]

/-- Leaves a run in which only the table has changed. -/
def on (run : InterruptRun κ η) {β : Type} (f : β → InterruptAnswer η α)
    (step : Except PortFault β × InterruptTable κ η) :
    Except PortFault (InterruptAnswer η α) × InterruptRun κ η :=
  (step.1.map f, { run with table := step.2 })

mutual

/-- Carries out one operation. A fault stops the run. -/
def perform (run : InterruptRun κ η) :
    InterruptOperation κ η α → Except PortFault (InterruptAnswer η α) × InterruptRun κ η
  | .register line handler context priority =>
    let (result, table) := run.table.register line handler context priority
    run.on .result (.ok result, table)
  | .remove line => run.on (fun _ => .done) (.ok (), run.table.remove line)
  | .dispatch line =>
    let (dispatch, table) := run.table.dispatch line
    (.ok (.dispatched dispatch),
      { run with table, latestCalls := dispatch.calls.reverse ++ run.latestCalls })
  | .enable line => run.on .result (run.table.enable line)
  | .disable line => run.on .result (run.table.disable line)
  | .save =>
    let (flags, table) := run.table.saveAndDisable
    (.ok (.flags flags), { run with table, lastSave := flags })
  | .restore flags =>
    run.on (fun _ => .done) (.ok (), run.table.restore (flags.getD run.lastSave))
  | .descriptor line => (.ok (.descriptor (run.table.descriptor? line)), run)
  | .registeredLines => (.ok (.lines run.table.registeredLines), run)
  | .controller act =>
    let (answer, controller) := act run.table.controller
    run.on .controller (answer, { run.table with controller })
  | .critical body =>
    let (result, table) := run.table.criticalSection fun table =>
      let (answers, inside) := performAll { run with table } body
      (answers.map fun answers => (answers, inside), inside.table)
    match result with
    | .ok (answers, inside) => (.ok (.critical answers), { inside with table })
    | .error fault => (.error fault, { run with table })

/-- Carries out operations one after the other; with each answer comes whether interrupts were
taken after it. -/
def performAll (run : InterruptRun κ η) :
    List (InterruptOperation κ η α) →
      Except PortFault (List (InterruptAnswer η α × Bool)) × InterruptRun κ η
  | [] => (.ok [], run)
  | operation :: rest =>
    match perform run operation with
    | (.error fault, run) => (.error fault, run)
    | (.ok answer, run) =>
      let enabled := InterruptController.enabled run.table.controller
      match performAll run rest with
      | (.ok answers, run) => (.ok ((answer, enabled) :: answers), run)
      | (.error fault, run) => (.error fault, run)

end

end InterruptRun

end Firmware
