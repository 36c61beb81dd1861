/-
  Firmware: the reasons for which an operation of the core is refused, and their wording.
  A refused operation always hands control back; nothing here is fatal.
-/

namespace Firmware

/-- Why an operation did not succeed. -/
inductive Error where
  /-- A condition did not hold within its budget of evaluations. -/
  | timeout
  /-- Another operation is in flight, or every slot is taken. -/
  | busy
  /-- The capability is absent, or the command is not known. -/
  | unsupported
  /-- A line or address outside its domain. -/
  | outOfRange (value : Nat)
  /-- Every attempt failed. -/
  | failed
  deriving DecidableEq

/-- The text shown for an error. -/
def Error.message : Error → String
  | .timeout => "operation timed out"
  | .busy => "resource busy"
  | .unsupported => "operation not supported"
  | .outOfRange value => "value out of range: " ++ toString value
  | .failed => "operation failed"

end Firmware
