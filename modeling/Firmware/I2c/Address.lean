/-
  Firmware: 7-bit addresses on the I2C bus, and the byte that opens a transfer: the address in
  the upper seven bits and the direction in the lowest.
-/
import Firmware.Error

namespace Firmware.I2c

/-- Which way the data bytes of a transfer go. -/
inductive Direction where
  | write
  | read
  deriving DecidableEq

/-- The name of a direction as it is shown. -/
def Direction.name : Direction → String
  | .write => "Write"
  | .read => "Read"

/-- The highest 7-bit address. -/
def highestAddress : UInt8 := 0x7F

/-- A 7-bit address. -/
structure Address where
  value : UInt8
  le_highest : value ≤ highestAddress
  deriving DecidableEq

namespace Address

/-- The address with a value, if it has seven bits. -/
def ofByte (value : UInt8) : Except Error Address :=
  if h : value ≤ highestAddress then .ok ⟨value, h⟩ else .error (.outOfRange value.toNat)

/-- The address with a number below 128. -/
def ofFin (n : Fin 128) : Address where
  value := UInt8.ofNat n.val
  le_highest := by
    have := n.isLt
    rw [UInt8.le_iff_toNat_le]
    simp [highestAddress]
    omega

/-- Every address, in ascending order. -/
def all : List Address := (List.finRange 128).map ofFin

/-- The byte sent to open a transfer. -/
def openingByte (address : Address) : Direction → UInt8
  | .write => address.value <<< 1
  | .read => (address.value <<< 1) ||| 1

end Address

end Firmware.I2c
