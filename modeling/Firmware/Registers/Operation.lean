/-
  Firmware: what is asked of registers as data, so that a run is a list of it. A call goes to a
  register by its address or by its offset in a block. A register file takes calls as any other
  back end does and can besides be preset and have its record cleared; it is reached through
  handles, and a copy of a handle reaches the same file.
-/
import Firmware.Registers.Recorded

namespace Firmware

/-- How registers are reached: all of them by their addresses, or those of a block by their
offsets from its base. -/
inductive RegisterView where
  | whole
  | block (base : UInt64)
  deriving DecidableEq

/-- What can be asked of one register. -/
inductive RegisterAction where
  | read
  | write (value : UInt32)
  | setBits (bits : UInt32)
  | clearBits (bits : UInt32)
  | modify (f : UInt32 → UInt32)

/-- An action on the register at a place in a view. -/
structure RegisterCall where
  view : RegisterView
  place : UInt64
  action : RegisterAction

namespace Registers

variable {σ : Type}

/-- The registers as they are reached in a view. -/
def seen (registers : Registers σ) : RegisterView → Registers σ
  | .whole => registers
  | .block base => registers.window base

/-- Makes a call and answers the value, if it was a read. -/
def perform (registers : Registers σ) (call : RegisterCall) (s : σ) : Option UInt32 × σ :=
  let registers := registers.seen call.view
  match call.action with
  | .read =>
    let (value, s) := registers.read call.place s
    (some value, s)
  | .write value => (none, registers.write call.place value s)
  | .setBits bits => (none, registers.setBits call.place bits s)
  | .clearBits bits => (none, registers.clearBits call.place bits s)
  | .modify f => (none, registers.modify call.place f s)

/-- Makes calls one after the other and answers them in order. -/
def performAll (registers : Registers σ) :
    List RegisterCall → σ → List (Option UInt32) × σ
  | [], s => ([], s)
  | call :: rest, s =>
    let (answer?, s) := registers.perform call s
    let (answers, s) := performAll registers rest s
    (answer? :: answers, s)

end Registers

/-! ## Register files -/

/-- What can be asked of a register file. -/
inductive FileOperation where
  | call (call : RegisterCall)
  /-- Stores a value without an access. -/
  | preset (address : UInt64) (value : UInt32)
  /-- Forgets the accesses made so far. -/
  | clear

/-- An operation on a register file and what it answered. -/
structure FileStep where
  operation : FileOperation
  /-- The value, if it was a read. -/
  answer? : Option UInt32

namespace RegisterFile

/-- Carries out one operation. -/
def perform (file : RegisterFile) : FileOperation → Option UInt32 × RegisterFile
  | .call call => registers.perform call file
  | .preset address value => (none, file.preset address value)
  | .clear => (none, file.clear)

/-- Carries out operations one after the other. -/
def run (file : RegisterFile) : List FileOperation → List FileStep × RegisterFile
  | [] => ([], file)
  | operation :: rest =>
    let (answer?, file) := file.perform operation
    let (steps, file) := run file rest
    ({ operation, answer? } :: steps, file)

end RegisterFile

/-! ## Handles -/

/-- A handle of a register file: the one that the file was made with, or a copy of a handle. -/
inductive Handle where
  | made (file : Nat)
  | copy (original : Handle)
  deriving DecidableEq

/-- The file that a handle reaches. -/
def Handle.file : Handle → Nat
  | made file => file
  | copy original => original.file

/-- Register files side by side, each of them empty when it is made. -/
structure RegisterFiles where
  file : Nat → RegisterFile := fun _ => .empty

/-- An operation through a handle and what it answered. -/
structure HandleStep extends FileStep where
  handle : Handle

namespace RegisterFiles

/-- Puts one of the files into another state. -/
def set (files : RegisterFiles) (number : Nat) (file : RegisterFile) : RegisterFiles where
  file other := if other = number then file else files.file other

/-- Carries out one operation on the file that the handle reaches. -/
def perform (files : RegisterFiles) (handle : Handle) (operation : FileOperation) :
    Option UInt32 × RegisterFiles :=
  let (answer?, file) := (files.file handle.file).perform operation
  (answer?, files.set handle.file file)

/-- Carries out operations through handles, one after the other. -/
def run (files : RegisterFiles) :
    List (Handle × FileOperation) → List HandleStep × RegisterFiles
  | [] => ([], files)
  | (handle, operation) :: rest =>
    let (answer?, files) := files.perform handle operation
    let (steps, files) := run files rest
    ({ handle, operation, answer? } :: steps, files)

end RegisterFiles

end Firmware
