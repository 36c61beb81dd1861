/-
  Firmware: the outline of a document. A value of any depth is skipped token by token with the open
  brackets on a stack, and skipping comes out behind it with the stack it began with. So the reader
  finds, at the top of an array or of an object, the values that are there and nothing else.
-/
import Firmware.Json.Outline
import Firmware.Proofs.Json.Lexing

namespace Firmware.Json

/-! ## Skipping -/

/-- No value begins with a closing token. -/
theorem exists_tokens_cons (value : Value) :
    ∃ first more, value.tokens = first :: more ∧ first ≠ .closeBracket ∧ first ≠ .closeBrace := by
  cases value with
  | _ => exact ⟨_, _, rfl, nofun, nofun⟩

theorem exists_elements_cons (elements : Elements) :
    ∃ first more, elements.tokens = first :: more ∧ first ≠ .closeBracket := by
  cases elements with
  | last before value after =>
    obtain ⟨first, more, htokens, hfirst, -⟩ := exists_tokens_cons value
    exact ⟨first, more ++ [.closeBracket], by rw [Elements.tokens, htokens]; rfl, hfirst⟩
  | more before value after rest =>
    obtain ⟨first, more, htokens, hfirst, -⟩ := exists_tokens_cons value
    exact ⟨first, more ++ .comma :: rest.tokens, by rw [Elements.tokens, htokens]; rfl, hfirst⟩

theorem skipValue_open {stack : List Bracket} {first : Token} {rest : List Token}
    (h : first ≠ .closeBracket) :
    skipValue stack (.openBracket :: first :: rest) =
      skipValue (.array :: stack) (first :: rest) := by
  rw [skipValue]
  rintro _ ⟨rfl, rfl⟩
  exact h rfl

mutual

/-- Skipping a value comes out behind it. -/
theorem skipValue_value (value : Value) (stack : List Bracket) (rest : List Token) :
    skipValue stack (value.tokens ++ rest) = skipAfter stack rest := by
  cases value with
  | null | boolean value | number n | string written => rfl
  | emptyArray inner | emptyObject inner => rfl
  | array elements =>
    obtain ⟨first, more, htokens, hfirst⟩ := exists_elements_cons elements
    have hinside := skipValue_elements elements stack rest
    rw [htokens, List.cons_append] at hinside
    rw [Value.tokens, htokens, List.cons_append, List.cons_append, skipValue_open hfirst]
    exact hinside
  | object members =>
    obtain ⟨key, more, htokens, hinside⟩ := skipValue_members members stack rest
    rw [Value.tokens, List.cons_append, htokens]
    exact hinside

theorem skipValue_elements (elements : Elements) (stack : List Bracket) (rest : List Token) :
    skipValue (.array :: stack) (elements.tokens ++ rest) = skipAfter stack rest := by
  cases elements with
  | last before value after =>
    rw [Elements.tokens, List.append_assoc, skipValue_value value]
    rfl
  | more before value after others =>
    rw [Elements.tokens, List.append_assoc, skipValue_value value]
    exact skipValue_elements others stack rest

/-- Skipping begins behind the first name of an object. -/
theorem skipValue_members (members : Members) (stack : List Bracket) (rest : List Token) :
    ∃ key more, members.tokens ++ rest = .string key :: .colon :: more ∧
      skipValue (.object :: stack) more = skipAfter stack rest := by
  cases members with
  | last name before value after =>
    refine ⟨spelled? name.key, value.tokens ++ ([.closeBrace] ++ rest), ?_, ?_⟩
    · rw [Members.tokens, List.cons_append, List.cons_append, List.append_assoc]
    · rw [skipValue_value value]
      rfl
  | more name before value after others =>
    obtain ⟨key, more, htokens, hinside⟩ := skipValue_members others stack rest
    refine ⟨spelled? name.key, value.tokens ++ .comma :: (others.tokens ++ rest), ?_, ?_⟩
    · rw [Members.tokens, List.cons_append, List.cons_append, List.append_assoc]
      rfl
    · rw [skipValue_value value, htokens]
      exact hinside

end

/-! ## Outlines -/

/-- A value as far as an outline shows it. -/
def Value.item : Value → Item
  | .null => .null
  | value => value.natural?.elim .other .natural

theorem item?_value (value : Value) (rest : List Token) :
    item? (value.tokens ++ rest) = some (value.item, rest) := by
  have hskip : (skipValue [] (value.tokens ++ rest)).map (Item.other, ·) = some (.other, rest) := by
    rw [skipValue_value, skipAfter]
    rfl
  cases value with
  | null => rfl
  | number n =>
    rw [Value.tokens, List.singleton_append] at hskip ⊢
    show _ = some (n.natural?.elim Item.other Item.natural, rest)
    cases hvalue : n.natural? with
    | some value => rfl
    | none =>
      rw [hvalue] at hskip
      exact hskip
  | _ => exact hskip

theorem elements?_last {ts : List Token} {item : Item}
    (h : item? ts = some (item, [.closeBracket])) : elements? ts = some [item] := by
  rw [elements?]
  split
  · next hnone => rw [h] at hnone; cases hnone
  · next hsome =>
    rw [h] at hsome
    obtain ⟨rfl, rfl⟩ := Prod.mk.inj (Option.some.inj hsome)
    rfl

theorem elements?_more {ts rest : List Token} {item : Item}
    (h : item? ts = some (item, .comma :: rest)) :
    elements? ts = (elements? rest).map (item :: ·) := by
  rw [elements?]
  split
  · next hnone => rw [h] at hnone; cases hnone
  · next hsome =>
    rw [h] at hsome
    obtain ⟨rfl, rfl⟩ := Prod.mk.inj (Option.some.inj hsome)
    rfl

theorem elements?_tokens : ∀ elements : Elements,
    elements? elements.tokens = some (elements.toList.map Value.item)
  | .last _ value _ => elements?_last (item?_value value _)
  | .more _ value _ rest => by
    rw [Elements.tokens, elements?_more (item?_value value _), elements?_tokens rest]
    rfl

theorem members?_last {ts : List Token} {key : Option String} {item : Item}
    (h : item? ts = some (item, [.closeBrace])) :
    members? (.string key :: .colon :: ts) = some [(key, item)] := by
  rw [members?]
  split
  · next hnone => rw [h] at hnone; cases hnone
  · next hsome =>
    rw [h] at hsome
    obtain ⟨rfl, rfl⟩ := Prod.mk.inj (Option.some.inj hsome)
    rfl

theorem members?_more {ts rest : List Token} {key : Option String} {item : Item}
    (h : item? ts = some (item, .comma :: rest)) :
    members? (.string key :: .colon :: ts) = (members? rest).map ((key, item) :: ·) := by
  rw [members?]
  split
  · next hnone => rw [h] at hnone; cases hnone
  · next hsome =>
    rw [h] at hsome
    obtain ⟨rfl, rfl⟩ := Prod.mk.inj (Option.some.inj hsome)
    rfl

/-- What an outline shows of members. -/
def shown (given : List (String × Value)) : List Member :=
  given.map fun (key, value) => (some key, value.item)

theorem members?_tokens {members : Members} {given : List (String × Value)}
    (h : members.Gives given) : members? members.tokens = some (shown given) := by
  induction h with
  | @last name before after value key spells =>
    rw [Members.tokens, members?_last (item?_value value _), spelled?_eq spells]
    rfl
  | @more name before after value rest key given spells others ih =>
    rw [Members.tokens, members?_more (item?_value value _), spelled?_eq spells, ih]
    rfl

/-! ## The top level -/

theorem ofTokens?_array {value : Value} {values : List Value} (lists : value.Lists values) :
    Outline.ofTokens? value.tokens = some (.array (values.map Value.item)) := by
  cases lists with
  | empty => rfl
  | @array elements =>
    obtain ⟨first, more, htokens, hfirst⟩ := exists_elements_cons elements
    have hopen : elements.tokens ≠ [.closeBracket] := by
      rw [htokens]
      exact fun h => hfirst (List.cons.inj h).1
    rw [Value.tokens, Outline.ofTokens?, elements?_tokens]
    · rfl
    · exact hopen

theorem ofTokens?_members (members : Members) :
    Outline.ofTokens? (.openBrace :: members.tokens) =
      (members? members.tokens).map .object := by
  have hopen : members.tokens ≠ [.closeBrace] := by
    cases members with
    | _ => exact nofun
  rw [Outline.ofTokens?]
  exact hopen

theorem ofTokens?_object {value : Value} {given : List (String × Value)}
    (gives : value.Gives given) :
    Outline.ofTokens? value.tokens = some (.object (shown given)) := by
  cases gives with
  | empty => rfl
  | object h =>
    rw [Value.tokens, ofTokens?_members, members?_tokens h]
    rfl

theorem ofText?_document (document : Document) :
    Outline.ofText? document.text = Outline.ofTokens? document.value.tokens := by
  rw [Outline.ofText?, tokens?_document]
  rfl

end Firmware.Json
