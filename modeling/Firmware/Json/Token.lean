/-
  Firmware: the tokens of JSON text. Blanks are space, tab, line feed and carriage return. A
  number keeps its value if it is written as a plain natural number; a string keeps its text
  unless a surrogate stands alone in it. Everything else that a token could say is dropped: no
  reader of the library needs it.
-/
import Firmware.Text.Numeral

namespace Firmware.Json

/-- What JSON text is made of. -/
inductive Token where
  | openBrace
  | closeBrace
  | openBracket
  | closeBracket
  | colon
  | comma
  | null
  | boolean (value : Bool)
  /-- A number, with its value unless it has a sign, a fraction or an exponent. -/
  | number (natural? : Option Nat)
  /-- A string, with its text unless a surrogate stands alone in it. -/
  | string (text? : Option String)
  deriving DecidableEq

def isBlank (c : Char) : Bool := c = ' ' || c = '\t' || c = '\n' || c = '\r'

/-! ## Numbers -/

/-- The digits at the front of a text, and what follows them. -/
def digits (cs : List Char) : List Char × List Char :=
  (cs.takeWhile Char.isDigit, cs.dropWhile Char.isDigit)

/-- The integer part at the front of a text: one zero, or digits that start with another one. -/
def integerPart : List Char → Option (List Char × List Char)
  | '0' :: rest => some (['0'], rest)
  | cs => if (digits cs).1 = [] then none else some (digits cs)

/-- At least one digit at the front of a text; answers what follows them. -/
def skipDigits (cs : List Char) : Option (List Char) :=
  if (digits cs).1 = [] then none else some (digits cs).2

/-- A fraction at the front of a text, if there is one: whether there was, and what follows. -/
def fraction : List Char → Option (Bool × List Char)
  | '.' :: rest => (skipDigits rest).map (true, ·)
  | rest => some (false, rest)

/-- What follows the sign of an exponent, if it has one. -/
def skipSign : List Char → List Char
  | '+' :: rest => rest
  | '-' :: rest => rest
  | rest => rest

/-- An exponent at the front of a text, if there is one: whether there was, and what follows. -/
def exponent : List Char → Option (Bool × List Char)
  | 'e' :: rest => (skipDigits (skipSign rest)).map (true, ·)
  | 'E' :: rest => (skipDigits (skipSign rest)).map (true, ·)
  | rest => some (false, rest)

/-- A number without a sign at the front of a text: its value if it is a plain natural number,
and what follows. -/
def unsigned (cs : List Char) : Option (Option Nat × List Char) :=
  match integerPart cs with
  | none => none
  | some (integer, rest) =>
    match fraction rest with
    | none => none
    | some (hasFraction, rest) =>
      match exponent rest with
      | none => none
      | some (hasExponent, rest) =>
        let plain := !hasFraction && !hasExponent
        some (if plain then Numeral.decimalValue? integer else none, rest)

/-! ## Strings -/

/-- One step of a string: a character, or a UTF-16 unit written as an escape. -/
inductive Piece where
  | char (c : Char)
  | unit (value : Nat)
  deriving DecidableEq

/-- The value of four hexadecimal digits. -/
def unit? (a b c d : Char) : Option Nat := Numeral.hexValue? [a, b, c, d]

/-- What a character after a backslash stands for, other than the start of a unit. -/
def escaped? (c : Char) : Option Char :=
  if c = '"' then some '"'
  else if c = '\\' then some '\\'
  else if c = '/' then some '/'
  else if c = 'b' then some '\x08'
  else if c = 'f' then some '\x0c'
  else if c = 'n' then some '\n'
  else if c = 'r' then some '\r'
  else if c = 't' then some '\t'
  else none

/-- The pieces of a string up to its closing quote, after those in `found`, the latest one
first, and what follows the quote. Control characters must be escaped. -/
def pieces (found : List Piece) : List Char → Option (List Piece × List Char)
  | [] => none
  | '"' :: rest => some (found.reverse, rest)
  | '\\' :: 'u' :: a :: b :: c :: d :: rest =>
    match unit? a b c d with
    | some u => pieces (.unit u :: found) rest
    | none => none
  | '\\' :: c :: rest =>
    match escaped? c with
    | some e => pieces (.char e :: found) rest
    | none => none
  | c :: rest => if c = '\\' ∨ c < ' ' then none else pieces (.char c :: found) rest

/-- A unit that must be followed by the other half of its character. -/
def isLead (u : Nat) : Bool := 0xD800 ≤ u && u < 0xDC00

/-- A unit that must follow the other half of its character. -/
def isTrail (u : Nat) : Bool := 0xDC00 ≤ u && u < 0xE000

/-- The text that pieces stand for, after the characters in `found`, the latest one first. There
is none if half of a character stands alone. -/
def join (found : List Char) : List Piece → Option (List Char)
  | [] => some found.reverse
  | .char c :: rest => join (c :: found) rest
  | .unit u :: .unit v :: rest =>
    if isLead u then
      if isTrail v then
        join (Char.ofNat (0x10000 + (u - 0xD800) * 0x400 + (v - 0xDC00)) :: found) rest
      else none
    else if isTrail u then none
    else join (Char.ofNat u :: found) (.unit v :: rest)
  | .unit u :: rest =>
    if isLead u || isTrail u then none else join (Char.ofNat u :: found) rest

/-! ## Token by token -/

/-- The token that starts with `c` and goes on in `rest`, and what follows it. -/
def token? (c : Char) (rest : List Char) : Option (Token × List Char) :=
  match c with
  | '{' => some (.openBrace, rest)
  | '}' => some (.closeBrace, rest)
  | '[' => some (.openBracket, rest)
  | ']' => some (.closeBracket, rest)
  | ':' => some (.colon, rest)
  | ',' => some (.comma, rest)
  | '"' => (pieces [] rest).map fun (found, rest) =>
      (.string ((join [] found).map String.ofList), rest)
  | '-' => (unsigned rest).map fun (_, rest) => (.number none, rest)
  | 'n' =>
    match rest with
    | 'u' :: 'l' :: 'l' :: rest => some (.null, rest)
    | _ => none
  | 't' =>
    match rest with
    | 'r' :: 'u' :: 'e' :: rest => some (.boolean true, rest)
    | _ => none
  | 'f' =>
    match rest with
    | 'a' :: 'l' :: 's' :: 'e' :: rest => some (.boolean false, rest)
    | _ => none
  | c => (unsigned (c :: rest)).map fun (value, rest) => (.number value, rest)

theorem length_skipDigits {cs rest : List Char} (h : skipDigits cs = some rest) :
    rest.length ≤ cs.length := by
  unfold skipDigits at h
  split at h
  · simp at h
  · simp only [Option.some.injEq] at h
    subst h
    exact (List.dropWhile_sublist _).length_le

theorem length_skipSign (cs : List Char) : (skipSign cs).length ≤ cs.length := by
  unfold skipSign
  split <;> simp

theorem length_fraction {cs rest : List Char} {b : Bool} (h : fraction cs = some (b, rest)) :
    rest.length ≤ cs.length := by
  unfold fraction at h
  split at h
  · obtain ⟨r, hr, e⟩ := Option.map_eq_some_iff.1 h
    obtain ⟨_, rfl⟩ := Prod.mk.inj e
    have := length_skipDigits hr
    simp only [List.length_cons]; omega
  · simp only [Option.some.injEq, Prod.mk.injEq] at h
    exact Nat.le_of_eq (congrArg _ h.2.symm)

theorem length_exponent {cs rest : List Char} {b : Bool} (h : exponent cs = some (b, rest)) :
    rest.length ≤ cs.length := by
  unfold exponent at h
  split at h
  iterate 2
    · rename_i after
      obtain ⟨r, hr, e⟩ := Option.map_eq_some_iff.1 h
      obtain ⟨_, rfl⟩ := Prod.mk.inj e
      have := length_skipDigits hr
      have := length_skipSign after
      simp only [List.length_cons]; omega
  · simp only [Option.some.injEq, Prod.mk.injEq] at h
    exact Nat.le_of_eq (congrArg _ h.2.symm)

theorem length_integerPart {cs found rest : List Char}
    (h : integerPart cs = some (found, rest)) : rest.length < cs.length := by
  unfold integerPart at h
  split at h
  · simp only [Option.some.injEq, Prod.mk.injEq] at h
    simp [← h.2]
  · split at h
    · simp at h
    · rename_i hne
      simp only [digits, Option.some.injEq, Prod.mk.injEq] at h hne
      rw [← h.2]
      cases cs with
      | nil => simp at hne
      | cons c cs =>
        have hd : c.isDigit = true := by
          cases hc : c.isDigit with
          | true => rfl
          | false => simp [hc] at hne
        rw [List.dropWhile_cons]
        have : (cs.dropWhile Char.isDigit).length ≤ cs.length :=
          (List.dropWhile_sublist _).length_le
        simp only [hd, if_true, List.length_cons]
        omega

theorem length_unsigned {cs rest : List Char} {n : Option Nat}
    (h : unsigned cs = some (n, rest)) : rest.length < cs.length := by
  unfold unsigned at h
  split at h
  · simp at h
  rename_i hi
  split at h
  · simp at h
  rename_i hf
  split at h
  · simp at h
  rename_i he
  simp only [Option.some.injEq, Prod.mk.injEq] at h
  have := length_integerPart hi
  have := length_fraction hf
  have := length_exponent he
  rw [← h.2]; omega

theorem length_pieces {found all : List Piece} {cs rest : List Char}
    (h : pieces found cs = some (all, rest)) : rest.length < cs.length := by
  fun_induction pieces found cs with
  | case1 => simp at h
  | case2 => simp at h; simp [← h.2]
  | case3 found a b c d rest u hu ih => have := ih h; simp only [List.length_cons]; omega
  | case4 => simp at h
  | case5 found c rest _ e he ih => have := ih h; simp only [List.length_cons]; omega
  | case6 => simp at h
  | case7 => simp at h
  | case8 found c rest _ _ _ hc ih => have := ih h; simp only [List.length_cons]; omega

theorem length_token {c : Char} {cs rest : List Char} {t : Token}
    (h : token? c cs = some (t, rest)) : rest.length ≤ cs.length := by
  unfold token? at h
  split at h
  iterate 6
    · simp only [Option.some.injEq, Prod.mk.injEq] at h
      exact Nat.le_of_eq (congrArg _ h.2.symm)
  · obtain ⟨⟨_, r⟩, hr, e⟩ := Option.map_eq_some_iff.1 h
    obtain ⟨_, rfl⟩ := Prod.mk.inj e
    exact Nat.le_of_lt (length_pieces hr)
  · obtain ⟨⟨_, r⟩, hr, e⟩ := Option.map_eq_some_iff.1 h
    obtain ⟨_, rfl⟩ := Prod.mk.inj e
    exact Nat.le_of_lt (length_unsigned hr)
  iterate 3
    · split at h
      · simp only [Option.some.injEq, Prod.mk.injEq] at h
        simp only [← h.2, List.length_cons]; omega
      · simp at h
  · obtain ⟨⟨_, r⟩, hr, e⟩ := Option.map_eq_some_iff.1 h
    obtain ⟨_, rfl⟩ := Prod.mk.inj e
    have := length_unsigned hr
    simp only [List.length_cons] at this; omega

/-- The tokens of a text, after those in `found`, the latest one first. -/
def tokensFrom (found : List Token) (cs : List Char) : Option (List Token) :=
  match cs with
  | [] => some found.reverse
  | c :: rest =>
    if isBlank c then tokensFrom found rest
    else
      match _h : token? c rest with
      | none => none
      | some (t, left) => tokensFrom (t :: found) left
termination_by cs.length
decreasing_by
  · simp
  · have := length_token _h; simp only [List.length_cons]; omega

/-- The tokens of a text; none if some part of it is no token. -/
def tokens? (text : String) : Option (List Token) := tokensFrom [] text.toList

end Firmware.Json
