/-
  Firmware: tagged JSON objects. A value is tagged by one more member in front of its own, so there
  is a place for a tag in an object only.
-/
import Firmware.Json.Compact

namespace Firmware.Json

/-- A value that is to be tagged. -/
inductive Content where
  | leaf (leaf : Leaf)
  | object (members : List (String × Leaf))

/-- What a message calls a value that is no object. -/
def Leaf.noun : Leaf → String
  | .natural _ => "an integer"
  | .naturals _ => "a sequence"
  | .null => "an optional"
  | .word _ => "a string"

/-- A value that cannot be tagged. -/
structure TagFault where
  /-- The name of what was to be told by the tag. -/
  variant : String
  content : Leaf

/-- The text shown for a fault. -/
def TagFault.message (fault : TagFault) : String :=
  s!"cannot serialize tagged newtype variant {fault.variant} containing {fault.content.noun}"

/-- The members of a value with a tag in front of them. -/
def tagged (variant tag word : String) : Content → Except TagFault (List (String × Leaf))
  | .object members => .ok ((tag, .word word) :: members)
  | .leaf content => .error { variant, content }

end Firmware.Json
