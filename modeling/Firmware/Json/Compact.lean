/-
  Firmware: compact JSON text, without blanks. The values written by the library are natural
  numbers, lists of them, null, and words that need no escape.
-/
import Firmware.Text.Numeral

namespace Firmware.Json

/-- A value as the library writes it. -/
inductive Leaf where
  | natural (value : Nat)
  | naturals (values : List Nat)
  | null
  /-- Text of characters that need no escape. -/
  | word (text : String)

/-- Texts with commas between them. -/
def separated : List (List Char) → List Char
  | [] => []
  | [text] => text
  | text :: rest => text ++ ',' :: separated rest

def quoted (text : String) : List Char := '"' :: text.toList ++ ['"']

/-- The text of a value. -/
def Leaf.text : Leaf → List Char
  | .natural value => Numeral.decimal value
  | .naturals values => '[' :: separated (values.map Numeral.decimal) ++ [']']
  | .null => ['n', 'u', 'l', 'l']
  | .word text => quoted text

/-- The text of an object with the members in the order given. -/
def compact (members : List (String × Leaf)) : List Char :=
  '{' :: separated (members.map fun (key, leaf) => quoted key ++ ':' :: leaf.text) ++ ['}']

end Firmware.Json
