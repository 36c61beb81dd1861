/-
  Firmware: flat JSON objects, whose members are what the library writes as values: natural numbers,
  lists of them, null, and words. They are read token by token, so blanks do not matter.
-/
import Firmware.Json.Compact
import Firmware.Json.Token

namespace Firmware.Json

/-- The natural numbers up to a closing bracket, at least one, and the tokens that follow it. -/
def naturals? : List Token → Option (List Nat × List Token)
  | .number (some value) :: .closeBracket :: rest => some ([value], rest)
  | .number (some value) :: .comma :: rest =>
    (naturals? rest).map fun (values, rest) => (value :: values, rest)
  | _ => none

/-- One value at the front of some tokens, and the tokens that follow it. -/
def leaf? : List Token → Option (Leaf × List Token)
  | .number (some value) :: rest => some (.natural value, rest)
  | .null :: rest => some (.null, rest)
  | .string (some text) :: rest => some (.word text, rest)
  | .openBracket :: .closeBracket :: rest => some (.naturals [], rest)
  | .openBracket :: rest => (naturals? rest).map fun (values, rest) => (.naturals values, rest)
  | _ => none

theorem length_naturals {ts rest : List Token} {values : List Nat}
    (h : naturals? ts = some (values, rest)) : rest.length < ts.length := by
  fun_induction naturals? ts generalizing values with
  | case1 value others =>
    cases h
    simp only [List.length_cons]
    omega
  | case2 value others ih =>
    obtain ⟨⟨found, left⟩, hfound, heq⟩ := Option.map_eq_some_iff.mp h
    cases heq
    have hless := ih hfound
    simp only [List.length_cons]
    omega
  | case3 => cases h

theorem length_leaf {ts rest : List Token} {leaf : Leaf} (h : leaf? ts = some (leaf, rest)) :
    rest.length < ts.length := by
  unfold leaf? at h
  split at h
  iterate 3
    · cases h
      exact Nat.lt_succ_self _
  · cases h
    simp only [List.length_cons]
    omega
  · obtain ⟨⟨values, left⟩, hvalues, heq⟩ := Option.map_eq_some_iff.mp h
    cases heq
    exact Nat.lt_succ_of_lt (length_naturals hvalues)
  · cases h

/-- The members up to a closing brace, which must be the last token. -/
def leaves? (ts : List Token) : Option (List (String × Leaf)) :=
  match ts with
  | .string (some key) :: .colon :: ts =>
    match _h : leaf? ts with
    | none => none
    | some (leaf, rest) =>
      match rest with
      | [.closeBrace] => some [(key, leaf)]
      | .comma :: rest => (leaves? rest).map ((key, leaf) :: ·)
      | _ => none
  | _ => none
termination_by ts.length
decreasing_by have := length_leaf _h; simp only [List.length_cons] at this ⊢; omega

/-- The members of the flat object that some tokens make up, all of them. -/
def object? : List Token → Option (List (String × Leaf))
  | [.openBrace, .closeBrace] => some []
  | .openBrace :: ts => leaves? ts
  | _ => none

/-- The members of a flat object, in their order. -/
def flat? (text : String) : Option (List (String × Leaf)) := (tokens? text).bind object?

end Firmware.Json
