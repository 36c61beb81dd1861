/-
  Firmware: numerals. Decimal and hexadecimal text of natural numbers, and the reading of
  digits in base ten and sixteen. `decimalValue?_decimal` says that a printed decimal reads back.
-/

namespace Firmware.Numeral

/-- The decimal digits of a number, without leading zeros. -/
def decimal (n : Nat) : List Char := Nat.toDigits 10 n

/-- The lower-case hexadecimal digits of a number, at least `width` of them. -/
def hexDigits (width n : Nat) : List Char :=
  let digits := Nat.toDigits 16 n
  List.replicate (width - digits.length) '0' ++ digits

/-- Hexadecimal text with its marker, at least `width` digits: `0x1f`. -/
def hex (width n : Nat) : String := String.ofList ('0' :: 'x' :: hexDigits width n)

/-- Hexadecimal text with upper-case digits: `0x00A1`. -/
def upperHex (width n : Nat) : String :=
  String.ofList ('0' :: 'x' :: (hexDigits width n).map Char.toUpper)

/-- The value of a decimal digit. -/
def decimalDigit? (c : Char) : Option Nat :=
  if c.isDigit then some (c.toNat - '0'.toNat) else none

/-- The value of a hexadecimal digit of either case. -/
def hexDigit? (c : Char) : Option Nat :=
  if c.isDigit then some (c.toNat - '0'.toNat)
  else if 'a' ≤ c ∧ c ≤ 'f' then some (c.toNat - 'a'.toNat + 10)
  else if 'A' ≤ c ∧ c ≤ 'F' then some (c.toNat - 'A'.toNat + 10)
  else none

/-- Reads further digits after those worth `acc`; a character that is no digit spoils the
numeral. -/
def extend (base : Nat) (digit? : Char → Option Nat) : Nat → List Char → Option Nat
  | acc, [] => some acc
  | acc, c :: rest =>
    match digit? c with
    | some d => extend base digit? (acc * base + d) rest
    | none => none

/-- The value of a non-empty run of decimal digits. -/
def decimalValue? : List Char → Option Nat
  | [] => none
  | digits => extend 10 decimalDigit? 0 digits

/-- The value of a non-empty run of hexadecimal digits. -/
def hexValue? : List Char → Option Nat
  | [] => none
  | digits => extend 16 hexDigit? 0 digits

theorem extend_append (base : Nat) (digit? : Char → Option Nat) (acc : Nat) (xs ys : List Char) :
    extend base digit? acc (xs ++ ys) =
      (extend base digit? acc xs).bind (fun n => extend base digit? n ys) := by
  induction xs generalizing acc with
  | nil => rfl
  | cons c rest ih =>
    simp only [List.cons_append, extend]
    cases digit? c with
    | none => rfl
    | some d => exact ih _

theorem decimalDigit?_digitChar {d : Nat} (h : d < 10) : decimalDigit? d.digitChar = some d := by
  rw [decimalDigit?, Nat.isDigit_digitChar, if_pos (decide_eq_true h)]
  exact congrArg some (Nat.toNat_digitChar_sub_48_of_lt_ten h)

theorem extend_decimal (n : Nat) : extend 10 decimalDigit? 0 (decimal n) = some n := by
  induction n using Nat.strongRecOn with
  | ind n ih =>
    unfold decimal
    by_cases h : n < 10
    · rw [Nat.toDigits_of_lt_base h]
      simp [extend, decimalDigit?_digitChar h]
    · rw [Nat.toDigits_of_base_le (by decide) (by omega), extend_append]
      have := ih (n / 10) (by omega)
      unfold decimal at this
      rw [this]
      simp only [Option.bind_some, extend, decimalDigit?_digitChar (Nat.mod_lt n (by decide))]
      congr 1
      omega

theorem decimal_ne_nil (n : Nat) : decimal n ≠ [] := by
  unfold decimal
  by_cases h : n < 10
  · rw [Nat.toDigits_of_lt_base h]; simp
  · rw [Nat.toDigits_of_base_le (by decide) (by omega)]; simp

/-- A printed decimal reads back. -/
theorem decimalValue?_decimal (n : Nat) : decimalValue? (decimal n) = some n := by
  cases h : decimal n with
  | nil => exact absurd h (decimal_ne_nil n)
  | cons c rest => rw [decimalValue?, ← h, extend_decimal]; simp

end Firmware.Numeral
