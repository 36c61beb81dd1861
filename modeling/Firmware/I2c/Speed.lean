/-
  Firmware: the named clock rates of the I2C bus and their JSON form, which is the name as a
  string, or an object with the name as its only key and null as its value.
-/
import Firmware.Json.Compact
import Firmware.Json.Outline

namespace Firmware.I2c

/-- The clock rates for which the timing of the bus is defined. -/
inductive Speed where
  | standard
  | fast
  | high
  deriving DecidableEq

namespace Speed

def hz : Speed → UInt32
  | .standard => 100000
  | .fast => 400000
  | .high => 3400000

def name : Speed → String
  | .standard => "Standard"
  | .fast => "Fast"
  | .high => "High"

def all : List Speed := [.standard, .fast, .high]

/-- The speed with exactly this rate. -/
def ofHz? (hz : UInt32) : Option Speed := all.find? fun speed => speed.hz = hz

def ofName? (name : String) : Option Speed := all.find? fun speed => speed.name = name

/-- The speed that a JSON text names. -/
def ofJson? (text : String) : Option Speed :=
  match Json.Outline.ofText? text with
  | some (.string (some name)) => ofName? name
  | some (.object [(some name, .null)]) => ofName? name
  | _ => none

/-- The JSON text of a speed. -/
def toJson (speed : Speed) : String := String.ofList (Json.quoted speed.name)

end Speed

end Firmware.I2c
