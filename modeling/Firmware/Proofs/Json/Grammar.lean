/-
  Firmware: the grammar of JSON text. A document is a value together with everything that its text
  leaves open: the blanks between tokens, the shape of each number, and how each character of a
  string is written. Every nesting is allowed, and so is every number and every string of the
  grammar, a surrogate that stands alone included; a key names a text only without such a one.
-/

namespace Firmware.Json

/-- Blanks between tokens. -/
structure Space where
  chars : List Char
  blank : ∀ c ∈ chars, c ∈ [' ', '\t', '\n', '\r']

/-- No blanks. -/
def Space.empty : Space := ⟨[], fun _ h => absurd h List.not_mem_nil⟩

/-! ## Numbers -/

/-- Digits as text. -/
def digitText (digits : List (Fin 10)) : List Char := digits.map fun digit => digit.val.digitChar

/-- What digits are worth in base ten. -/
def digitValue (digits : List (Fin 10)) : Nat :=
  digits.foldl (fun value digit => value * 10 + digit.val) 0

structure Fraction where
  digits : List (Fin 10)
  digits_ne_nil : digits ≠ []

def Fraction.text (fraction : Fraction) : List Char := '.' :: digitText fraction.digits

structure Exponent where
  marker : Char
  sign : List Char
  digits : List (Fin 10)
  marker_mem : marker ∈ ['e', 'E']
  sign_mem : sign ∈ [[], ['+'], ['-']]
  digits_ne_nil : digits ≠ []

def Exponent.text (exponent : Exponent) : List Char :=
  exponent.marker :: exponent.sign ++ digitText exponent.digits

structure Number where
  negative : Bool := false
  whole : List (Fin 10)
  fraction? : Option Fraction := none
  exponent? : Option Exponent := none
  whole_ne_nil : whole ≠ []
  /-- A zero has no digits behind it. -/
  unpadded : ∀ rest, whole = 0 :: rest → rest = []

namespace Number

/-- What follows the whole part. -/
def tailText (number : Number) : List Char :=
  number.fraction?.elim [] Fraction.text ++ number.exponent?.elim [] Exponent.text

def text (number : Number) : List Char :=
  (if number.negative then ['-'] else []) ++ digitText number.whole ++ number.tailText

/-- The value of a number that is written as a plain natural number: without a sign, a fraction
and an exponent. -/
def natural? (number : Number) : Option Nat :=
  if number.negative || number.fraction?.isSome || number.exponent?.isSome then none
  else some (digitValue number.whole)

end Number

/-! ## Strings -/

/-- The letters that can stand behind a backslash, with what they stand for there. -/
def escapes : List (Char × Char) :=
  [('"', '"'), ('\\', '\\'), ('/', '/'), ('b', '\x08'), ('f', '\x0c'), ('n', '\n'), ('r', '\r'),
    ('t', '\t')]

/-- A hexadecimal digit as it is written. -/
structure HexDigit where
  value : Fin 16
  upper : Bool

def HexDigit.char (digit : HexDigit) : Char :=
  if digit.upper then digit.value.val.digitChar.toUpper else digit.value.val.digitChar

/-- A UTF-16 unit as it is written. -/
structure CodeUnit where
  first : HexDigit
  second : HexDigit
  third : HexDigit
  fourth : HexDigit

namespace CodeUnit

def value (u : CodeUnit) : Nat :=
  ((u.first.value.val * 16 + u.second.value.val) * 16 + u.third.value.val) * 16 +
    u.fourth.value.val

def text (u : CodeUnit) : List Char :=
  ['\\', 'u', u.first.char, u.second.char, u.third.char, u.fourth.char]

/-- The first half of a surrogate pair. -/
def Leads (u : CodeUnit) : Prop := 0xD800 ≤ u.value ∧ u.value < 0xDC00

/-- The second half of a surrogate pair. -/
def Trails (u : CodeUnit) : Prop := 0xDC00 ≤ u.value ∧ u.value < 0xE000

instance (u : CodeUnit) : Decidable u.Leads := inferInstanceAs (Decidable (_ ∧ _))

instance (u : CodeUnit) : Decidable u.Trails := inferInstanceAs (Decidable (_ ∧ _))

end CodeUnit

/-- A character that can stand in a string as it is. -/
abbrev Plain (c : Char) : Prop := ' ' ≤ c ∧ c ≠ '"' ∧ c ≠ '\\'

theorem plain_of_all {text : List Char} (h : (text.all fun c => decide (Plain c)) = true) :
    ∀ c ∈ text, Plain c :=
  fun c hc => of_decide_eq_true (List.all_eq_true.mp h c hc)

/-- A step of a string as it is written. -/
inductive Written where
  | plain (c : Char) (allowed : Plain c)
  | escape (letter c : Char) (known : (letter, c) ∈ escapes)
  | unit (u : CodeUnit)

def Written.text : Written → List Char
  | .plain c _ => [c]
  | .escape letter _ _ => ['\\', letter]
  | .unit u => u.text

/-- Text that needs no escape, written as it is. -/
def plainly (text : List Char) (allowed : ∀ c ∈ text, Plain c) : List Written :=
  text.pmap Written.plain allowed

/-- A string with its quotes. -/
def stringText (written : List Written) : List Char :=
  '"' :: (written.flatMap Written.text ++ ['"'])

theorem stringText_plainly (text : List Char) (allowed : ∀ c ∈ text, Plain c) :
    stringText (plainly text allowed) = '"' :: (text ++ ['"']) := by
  have hsteps : (plainly text allowed).flatMap Written.text = text := by
    induction text with
    | nil => rfl
    | cons c rest ih =>
      exact congrArg (c :: ·) (ih fun d hd => allowed d (List.mem_cons_of_mem c hd))
  rw [stringText, hsteps]

/-- What is written spells a text: units that are no surrogates stand for themselves, and surrogates
come in pairs. -/
inductive Spells : List Written → List Char → Prop where
  | nil : Spells [] []
  | plain {c : Char} {allowed : Plain c} {written : List Written}
    {text : List Char} (rest : Spells written text) :
    Spells (.plain c allowed :: written) (c :: text)
  | escape {letter c : Char} {known : (letter, c) ∈ escapes} {written : List Written}
    {text : List Char} (rest : Spells written text) :
    Spells (.escape letter c known :: written) (c :: text)
  | unit {u : CodeUnit} {written : List Written} {text : List Char} (leads : ¬u.Leads)
    (trails : ¬u.Trails) (rest : Spells written text) :
    Spells (.unit u :: written) (Char.ofNat u.value :: text)
  | pair {u v : CodeUnit} {written : List Written} {text : List Char} (leads : u.Leads)
    (trails : v.Trails) (rest : Spells written text) :
    Spells (.unit u :: .unit v :: written)
      (Char.ofNat (0x10000 + (u.value - 0xD800) * 0x400 + (v.value - 0xDC00)) :: text)

theorem spells_plainly (text : List Char) (allowed : ∀ c ∈ text, Plain c) :
    Spells (plainly text allowed) text := by
  induction text with
  | nil => exact .nil
  | cons c rest ih => exact .plain (ih fun d hd => allowed d (List.mem_cons_of_mem c hd))

/-! ## Values -/

/-- The key of a member with the blanks around it. -/
structure Name where
  before : Space
  key : List Written
  after : Space

def Name.text (name : Name) : List Char :=
  name.before.chars ++ (stringText name.key ++ (name.after.chars ++ [':']))

mutual

inductive Value where
  | null
  | boolean (value : Bool)
  | number (n : Number)
  | string (written : List Written)
  | emptyArray (inner : Space)
  | array (elements : Elements)
  | emptyObject (inner : Space)
  | object (members : Members)

/-- The elements of an array, at least one. -/
inductive Elements where
  | last (before : Space) (value : Value) (after : Space)
  | more (before : Space) (value : Value) (after : Space) (rest : Elements)

/-- The members of an object, at least one. -/
inductive Members where
  | last (name : Name) (before : Space) (value : Value) (after : Space)
  | more (name : Name) (before : Space) (value : Value) (after : Space) (rest : Members)

end

mutual

def Value.text : Value → List Char
  | .null => ['n', 'u', 'l', 'l']
  | .boolean true => ['t', 'r', 'u', 'e']
  | .boolean false => ['f', 'a', 'l', 's', 'e']
  | .number n => n.text
  | .string written => stringText written
  | .emptyArray inner => '[' :: (inner.chars ++ [']'])
  | .array elements => '[' :: elements.text
  | .emptyObject inner => '{' :: (inner.chars ++ ['}'])
  | .object members => '{' :: members.text

/-- Elements up to the closing bracket. -/
def Elements.text : Elements → List Char
  | .last before value after => before.chars ++ (value.text ++ (after.chars ++ [']']))
  | .more before value after rest =>
    before.chars ++ (value.text ++ (after.chars ++ ',' :: rest.text))

/-- Members up to the closing brace. -/
def Members.text : Members → List Char
  | .last name before value after =>
    name.text ++ (before.chars ++ (value.text ++ (after.chars ++ ['}'])))
  | .more name before value after rest =>
    name.text ++ (before.chars ++ (value.text ++ (after.chars ++ ',' :: rest.text)))

end

/-- The natural number that a value is written as. -/
def Value.natural? : Value → Option Nat
  | .number n => n.natural?
  | _ => none

def Elements.toList : Elements → List Value
  | .last _ value _ => [value]
  | .more _ value _ rest => value :: rest.toList

/-- A value is an array of values. -/
inductive Value.Lists : Value → List Value → Prop where
  | empty {inner : Space} : Lists (.emptyArray inner) []
  | array {elements : Elements} : Lists (.array elements) elements.toList

/-- Members give values to texts. -/
inductive Members.Gives : Members → List (String × Value) → Prop where
  | last {name : Name} {before after : Space} {value : Value} {key : String}
    (spells : Spells name.key key.toList) : Gives (.last name before value after) [(key, value)]
  | more {name : Name} {before after : Space} {value : Value} {rest : Members} {key : String}
    {given : List (String × Value)} (spells : Spells name.key key.toList)
    (others : rest.Gives given) :
    Gives (.more name before value after rest) ((key, value) :: given)

/-- A value is an object that gives values to texts. -/
inductive Value.Gives : Value → List (String × Value) → Prop where
  | empty {inner : Space} : Gives (.emptyObject inner) []
  | object {members : Members} {given : List (String × Value)} (h : members.Gives given) :
    Gives (.object members) given

/-- A value and the blanks around it: JSON text. -/
structure Document where
  before : Space
  value : Value
  after : Space

def Document.text (document : Document) : String :=
  String.ofList (document.before.chars ++ (document.value.text ++ document.after.chars))

end Firmware.Json
