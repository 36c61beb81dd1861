/-
  Firmware: the outline of JSON text, which is its top level. Values that are neither natural
  numbers nor null are only checked for their grammar, at any depth: `skipValue` keeps the open
  brackets on a stack of its own.
-/
import Firmware.Json.Token

namespace Firmware.Json

/-- What has been opened and not yet closed. -/
inductive Bracket where
  | array
  | object
  deriving DecidableEq

mutual

/-- Drops the tokens of one value and of everything around it that is still open, and answers
the tokens that follow. -/
def skipValue (stack : List Bracket) : List Token → Option (List Token)
  | .openBracket :: .closeBracket :: rest => skipAfter stack rest
  | .openBracket :: rest => skipValue (.array :: stack) rest
  | .openBrace :: .closeBrace :: rest => skipAfter stack rest
  | .openBrace :: .string _ :: .colon :: rest => skipValue (.object :: stack) rest
  | .null :: rest => skipAfter stack rest
  | .boolean _ :: rest => skipAfter stack rest
  | .number _ :: rest => skipAfter stack rest
  | .string _ :: rest => skipAfter stack rest
  | _ => none

/-- Goes on behind a value that stands inside the brackets of the stack. -/
def skipAfter : List Bracket → List Token → Option (List Token)
  | [], rest => some rest
  | .array :: stack, .closeBracket :: rest => skipAfter stack rest
  | .array :: stack, .comma :: rest => skipValue (.array :: stack) rest
  | .object :: stack, .closeBrace :: rest => skipAfter stack rest
  | .object :: stack, .comma :: .string _ :: .colon :: rest => skipValue (.object :: stack) rest
  | _, _ => none

end

/-- A value as far as an outline shows it. -/
inductive Item where
  | natural (value : Nat)
  | null
  | other
  deriving DecidableEq

/-- One value at the front of some tokens, and the tokens that follow it. -/
def item? : List Token → Option (Item × List Token)
  | .number (some n) :: rest => some (.natural n, rest)
  | .null :: rest => some (.null, rest)
  | ts => (skipValue [] ts).map (.other, ·)

/-- A member of an object: its key, unless a surrogate stands alone in it, and its value. -/
abbrev Member := Option String × Item

/-- The top level of JSON text. -/
inductive Outline where
  | string (text? : Option String)
  | array (elements : List Item)
  | object (members : List Member)
  | other
  deriving DecidableEq

mutual

theorem length_skipValue {stack : List Bracket} {ts rest : List Token}
    (h : skipValue stack ts = some rest) : rest.length < ts.length := by
  unfold skipValue at h
  split at h
  · have := length_skipAfter h; simp only [List.length_cons]; omega
  · have := length_skipValue h; simp only [List.length_cons]; omega
  · have := length_skipAfter h; simp only [List.length_cons]; omega
  · have := length_skipValue h; simp only [List.length_cons]; omega
  iterate 4 · have := length_skipAfter h; simp only [List.length_cons]; omega
  · simp at h
termination_by ts.length

theorem length_skipAfter {stack : List Bracket} {ts rest : List Token}
    (h : skipAfter stack ts = some rest) : rest.length ≤ ts.length := by
  unfold skipAfter at h
  split at h
  · simp at h; simp [h]
  · have := length_skipAfter h; simp only [List.length_cons]; omega
  · have := length_skipValue h; simp only [List.length_cons]; omega
  · have := length_skipAfter h; simp only [List.length_cons]; omega
  · have := length_skipValue h; simp only [List.length_cons]; omega
  · simp at h
termination_by ts.length

end

theorem length_item {ts rest : List Token} {i : Item} (h : item? ts = some (i, rest)) :
    rest.length < ts.length := by
  unfold item? at h
  split at h
  iterate 2
    · simp only [Option.some.injEq, Prod.mk.injEq] at h
      simp [← h.2]
  · obtain ⟨r, hr, e⟩ := Option.map_eq_some_iff.1 h
    obtain ⟨_, rfl⟩ := Prod.mk.inj e
    exact length_skipValue hr

/-- The elements of an array up to its closing bracket, which must be the last token. -/
def elements? (ts : List Token) : Option (List Item) :=
  match _h : item? ts with
  | none => none
  | some (i, rest) =>
    match rest with
    | [.closeBracket] => some [i]
    | .comma :: rest => (elements? rest).map (i :: ·)
    | _ => none
termination_by ts.length
decreasing_by have := length_item _h; simp only [List.length_cons] at this ⊢; omega

/-- The members of an object up to its closing brace, which must be the last token. -/
def members? (ts : List Token) : Option (List Member) :=
  match ts with
  | .string key :: .colon :: ts =>
    match _h : item? ts with
    | none => none
    | some (i, rest) =>
      match rest with
      | [.closeBrace] => some [(key, i)]
      | .comma :: rest => (members? rest).map ((key, i) :: ·)
      | _ => none
  | _ => none
termination_by ts.length
decreasing_by have := length_item _h; simp only [List.length_cons] at this ⊢; omega

/-- The outline that some tokens make up, all of them. -/
def Outline.ofTokens? : List Token → Option Outline
  | [.string text] => some (.string text)
  | [.openBracket, .closeBracket] => some (.array [])
  | .openBracket :: rest => (elements? rest).map .array
  | [.openBrace, .closeBrace] => some (.object [])
  | .openBrace :: rest => (members? rest).map .object
  | [.null] => some .other
  | [.boolean _] => some .other
  | [.number _] => some .other
  | _ => none

/-- The outline of a text; none if it is not JSON. -/
def Outline.ofText? (text : String) : Option Outline := (tokens? text).bind Outline.ofTokens?

end Firmware.Json
