/-
  Firmware: recorded registers. Any back end can be wrapped so that every access is kept in
  order with the value that it carried. A register file is the wrapping of sparse registers; a
  preset changes a register without an access.
-/
import Firmware.Registers.Cells

namespace Firmware

/-- One access to a register, with the value read or written. -/
inductive Access where
  | read (address : UInt64) (value : UInt32)
  | write (address : UInt64) (value : UInt32)
  deriving DecidableEq

/-- A back end together with the accesses that reached it. -/
structure Recorded (σ : Type) where
  state : σ
  /-- The accesses, the latest one first. -/
  latestFirst : List Access := []

namespace Recorded

variable {σ : Type}

/-- The accesses in the order in which they were made. -/
def accesses (recorded : Recorded σ) : List Access := recorded.latestFirst.reverse

def record (recorded : Recorded σ) (access : Access) : Recorded σ :=
  { recorded with latestFirst := access :: recorded.latestFirst }

/-- Forgets the accesses and keeps the registers. -/
def clear (recorded : Recorded σ) : Recorded σ := { recorded with latestFirst := [] }

/-- The values written to one address, in order. -/
def writesTo (recorded : Recorded σ) (address : UInt64) : List UInt32 :=
  recorded.accesses.filterMap fun
    | .write a value => if a = address then some value else none
    | .read _ _ => none

/-- How often one address was read. -/
def readsOf (recorded : Recorded σ) (address : UInt64) : Nat :=
  recorded.accesses.countP fun
    | .read a _ => a = address
    | .write _ _ => false

end Recorded

/-- The same registers, with every access recorded. -/
def Registers.recorded {σ : Type} (registers : Registers σ) : Registers (Recorded σ) where
  read address recorded :=
    let (value, state) := registers.read address recorded.state
    (value, { state, latestFirst := .read address value :: recorded.latestFirst })
  write address value recorded :=
    { state := registers.write address value recorded.state,
      latestFirst := .write address value :: recorded.latestFirst }

/-- Sparse registers that record their accesses. -/
abbrev RegisterFile := Recorded Cells

namespace RegisterFile

/-- All registers zero, nothing recorded. -/
def empty : RegisterFile := { state := {} }

def registers : Registers RegisterFile := Cells.registers.recorded

/-- The current value of a register, without an access. -/
def value (file : RegisterFile) (address : UInt64) : UInt32 := file.state.get address

/-- Stores a value without an access. -/
def preset (file : RegisterFile) (address : UInt64) (value : UInt32) : RegisterFile :=
  { file with state := file.state.set address value }

end RegisterFile

/-- Neighbouring equal entries counted: what is latest in the given list comes last. -/
def runsOfReversed {α : Type} [DecidableEq α] (latestFirst : List α) : List (α × Nat) :=
  latestFirst.foldl
    (fun runs a =>
      match runs with
      | (b, n) :: rest => if a = b then (b, n + 1) :: rest else (a, 1) :: runs
      | [] => [(a, 1)])
    []

end Firmware
