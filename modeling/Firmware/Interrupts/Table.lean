/-
  Firmware: the interrupt table. Each of 256 lines has at most one handler, the one registered
  last; dispatching a line calls it once with the context it was registered with. Handlers are
  named by `η`. Critical sections run with interrupts off and give back the state they found.
-/
import Firmware.Interrupts.Controller
import Firmware.Journal

namespace Firmware

/-- How many lines the table has. -/
def interruptLines : Nat := 256

/-- What is registered on a line. -/
structure Descriptor (η : Type) where
  line : Nat
  handler : η
  /-- The word handed to the handler on every call. -/
  context : UInt64
  priority : UInt32
  deriving DecidableEq

/-- What came of dispatching a line. -/
inductive Dispatch (η : Type) where
  /-- The handler was called with the context. -/
  | handled (handler : η) (context : UInt64) (priority : UInt32)
  /-- Nothing is registered on the line. -/
  | noHandler
  deriving DecidableEq

/-- The calls that a dispatch made. -/
def Dispatch.calls {η : Type} : Dispatch η → List (η × UInt64)
  | .handled handler context _ => [(handler, context)]
  | .noHandler => []

/-- The handlers by line, over a controller with states `κ`. -/
structure InterruptTable (κ η : Type) where
  descriptors : Vector (Option (Descriptor η)) interruptLines
  controller : κ
  /-- The global state captured by the latest save that was not followed by a restore. -/
  saved : Option UInt64 := none
  journal : Journal := .empty

/-- What an interrupt table reports. -/
inductive InterruptNote where
  | created
  | replacing (line : Nat)
  | registered (line : Nat) (priority : UInt32)
  | removed (line : Nat)
  | noSuchLineToRemove (line : Nat)
  | noHandler (line : Nat)
  | enabled (line : Nat)
  | disabled (line : Nat)
  | noSuchLine (line : Nat)
  | nestedSave

def InterruptNote.record : InterruptNote → Record
  | .created => ⟨.info, s!"interrupt table initialized ({interruptLines} lines)"⟩
  | .replacing line => ⟨.debug, s!"irq {line}: replacing existing handler"⟩
  | .registered line priority =>
    ⟨.info, s!"irq {line}: handler set with priority {priority.toNat}"⟩
  | .removed line => ⟨.info, s!"irq {line}: handler removed"⟩
  | .noSuchLineToRemove line => ⟨.error, s!"irq {line}: out of range for removal"⟩
  | .noHandler line => ⟨.warn, s!"irq {line}: no handler registered"⟩
  | .enabled line => ⟨.info, s!"irq {line}: enabled"⟩
  | .disabled line => ⟨.info, s!"irq {line}: disabled"⟩
  | .noSuchLine line => ⟨.error, s!"irq {line}: out of range"⟩
  | .nestedSave =>
    ⟨.warn, "nested save_and_disable_all: previous saved state overwritten"⟩

namespace InterruptTable

variable {κ η : Type}

def note (table : InterruptTable κ η) (n : InterruptNote) : InterruptTable κ η :=
  { table with journal := table.journal.add n.record }

/-- A table without handlers that goes on with a journal. -/
def create (controller : κ) (journal : Journal) : InterruptTable κ η :=
  let table : InterruptTable κ η :=
    { descriptors := Vector.replicate interruptLines none, controller, journal }
  table.note .created

/-- What is registered on a line. -/
def descriptor? (table : InterruptTable κ η) (line : Nat) : Option (Descriptor η) :=
  table.descriptors[line]?.join

/-- The lines with a handler, in ascending order. -/
def registeredLines (table : InterruptTable κ η) : List Nat :=
  (List.range interruptLines).filter fun line => (table.descriptor? line).isSome

/-- Registers a handler on a line in place of what was there. -/
def register (table : InterruptTable κ η) (line : Nat) (handler : η) (context : UInt64)
    (priority : UInt32) : Except Error Unit × InterruptTable κ η :=
  if h : line < interruptLines then
    let table := if table.descriptors[line].isSome then table.note (.replacing line) else table
    let descriptor : Descriptor η := { line, handler, context, priority }
    let table := { table with descriptors := table.descriptors.set line (some descriptor) }
    (.ok (), table.note (.registered line priority))
  else (.error (.outOfRange line), table)

/-- Removes what is registered on a line; a line beyond the table is only reported. -/
def remove (table : InterruptTable κ η) (line : Nat) : InterruptTable κ η :=
  if h : line < interruptLines then
    { table with descriptors := table.descriptors.set line none }.note (.removed line)
  else table.note (.noSuchLineToRemove line)

/-- Calls the handler registered on a line, if there is one. -/
def dispatch (table : InterruptTable κ η) (line : Nat) : Dispatch η × InterruptTable κ η :=
  match table.descriptor? line with
  | some d => (.handled d.handler d.context d.priority, table)
  | none => (.noHandler, table.note (.noHandler line))

variable [InterruptController κ]

/-- Sets or clears the mask of a line of the table and reports `done` if the controller did it. -/
def mask (table : InterruptTable κ η) (line : Nat) (masked : Bool) (done : InterruptNote) :
    Except PortFault (Except Error Unit) × InterruptTable κ η :=
  if line < interruptLines then
    match InterruptController.setMasked line masked table.controller with
    | (.ok (.ok ()), controller) => (.ok (.ok ()), { table with controller }.note done)
    | (.ok (.error e), controller) => (.ok (.error e), { table with controller })
    | (.error fault, controller) => (.error fault, { table with controller })
  else (.ok (.error (.outOfRange line)), table.note (.noSuchLine line))

/-- Unmasks a line at the controller. -/
def enable (table : InterruptTable κ η) (line : Nat) :
    Except PortFault (Except Error Unit) × InterruptTable κ η :=
  table.mask line false (.enabled line)

/-- Masks a line at the controller. -/
def disable (table : InterruptTable κ η) (line : Nat) :
    Except PortFault (Except Error Unit) × InterruptTable κ η :=
  table.mask line true (.disabled line)

/-- Captures the global state and turns interrupts off. There is one slot for the captured
state; a second save before a restore is reported and takes the slot over. -/
def saveAndDisable (table : InterruptTable κ η) : UInt64 × InterruptTable κ η :=
  let (flags, controller) := InterruptController.saveAndDisable table.controller
  let nested := table.saved.isSome
  let table := { table with controller, saved := some flags }
  (flags, if nested then table.note .nestedSave else table)

/-- Writes a captured global state back and empties the slot. -/
def restore (table : InterruptTable κ η) (flags : UInt64) : InterruptTable κ η :=
  { table with
    controller := InterruptController.restore flags table.controller
    saved := none }

/-- Runs `body` with interrupts off and then writes back the global state found at the start.
A fault in the body stops the run where it is. -/
def criticalSection {α : Type} (table : InterruptTable κ η)
    (body : InterruptTable κ η → Except PortFault α × InterruptTable κ η) :
    Except PortFault α × InterruptTable κ η :=
  let (flags, table) := table.saveAndDisable
  match body table with
  | (.ok a, table) => (.ok a, table.restore flags)
  | (.error fault, table) => (.error fault, table)

end InterruptTable

end Firmware
