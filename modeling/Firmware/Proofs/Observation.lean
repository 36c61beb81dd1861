/-
  Firmware: everything that hardware is asked for, in order. Besides the accesses to its registers
  these are the calls of its hook.
-/
import Firmware.Proofs.Recording

namespace Firmware

/-- One thing that hardware is asked for. -/
inductive Occurrence where
  | access (access : Access)
  /-- The hook is called. -/
  | relaxed
  deriving DecidableEq

/-- What is asked for, without what hardware answers. -/
inductive Request where
  | read (address : UInt64)
  | write (address : UInt64) (word : UInt32)
  | relax
  deriving DecidableEq

def Occurrence.request : Occurrence → Request
  | .access (.read address _) => .read address
  | .access (.write address word) => .write address word
  | .relaxed => .relax

/-- What is read in turn, with the addresses. -/
def readings (occurrences : List Occurrence) : List (UInt64 × UInt32) :=
  occurrences.filterMap fun
    | .access (.read address word) => some (address, word)
    | _ => none

/-- Hardware in a state, together with what it was asked for. -/
structure Observed (σ : Type) where
  state : σ
  /-- What it was asked for, the latest first. -/
  latestFirst : List Occurrence := []

namespace Observed

variable {σ : Type}

/-- What was asked for, in order. -/
def occurrences (observed : Observed σ) : List Occurrence := observed.latestFirst.reverse

/-- One more thing asked for. -/
def note (observed : Observed σ) (occurrence : Occurrence) : Observed σ :=
  { observed with latestFirst := occurrence :: observed.latestFirst }

@[simp] theorem occurrences_note (observed : Observed σ) (occurrence : Occurrence) :
    (observed.note occurrence).occurrences = observed.occurrences ++ [occurrence] :=
  List.reverse_cons

end Observed

variable {σ : Type}

/-- The same hardware, with all that it is asked for kept. -/
def Hardware.observed (hardware : Hardware σ) : Hardware (Observed σ) where
  read address observed :=
    let (value, state) := hardware.read address observed.state
    (value, { observed with state }.note (.access (.read address value)))
  write address value observed :=
    { observed with state := hardware.write address value observed.state }.note
      (.access (.write address value))
  relax observed := { observed with state := hardware.relax observed.state }.note .relaxed

namespace Observed

variable (hardware : Hardware σ) (address : UInt64) (value : UInt32) (observed : Observed σ)

theorem occurrences_read : (hardware.observed.read address observed).2.occurrences =
    observed.occurrences ++ [.access (.read address (hardware.observed.read address observed).1)] :=
  occurrences_note _ _

theorem occurrences_write : (hardware.observed.write address value observed).occurrences =
    observed.occurrences ++ [.access (.write address value)] :=
  occurrences_note _ _

theorem occurrences_relax : (hardware.observed.relax observed).occurrences =
    observed.occurrences ++ [.relaxed] :=
  occurrences_note _ _

end Observed

end Firmware
