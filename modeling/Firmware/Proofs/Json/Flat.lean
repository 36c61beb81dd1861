/-
  Firmware: compact text reads back. A part of it is read as tokens of its own, up to what ends a
  number (`Reads`), parts with commas between them are read one after the other, and in the tokens
  the members are found again, whatever numbers, lists and words they hold: `flat?_compact`.
-/
import Firmware.Json.Flat
import Firmware.Proofs.Json.Compact
import Firmware.Proofs.Json.Texts

namespace Firmware.Json

/-! ## Parts of a text -/

/-- A text is read as some tokens, whatever follows it that ends a number. -/
def Reads (text : List Char) (tokens : List Token) : Prop :=
  ∀ (found : List Token) {rest : List Char}, Ends rest →
    tokensFrom found (text ++ rest) = tokensFrom (tokens.reverse ++ found) rest

theorem reads_decimal (n : Nat) : Reads (Numeral.decimal n) [.number (some n)] := by
  intro found rest ends
  obtain ⟨number, htext, hvalue⟩ := exists_number n
  obtain ⟨c, more, hcons, hblank, htoken⟩ := token?_number number ends
  rw [← htext, hcons, tokensFrom_token found hblank htoken, hvalue]
  rfl

theorem reads_quoted {text : String} (h : ∀ c ∈ text.toList, Plain c) :
    Reads (quoted text) [.string (some text)] := by
  intro found rest _
  rw [← stringText_word h, tokensFrom_string, spelled?_eq (spells_plainly _ h)]
  rfl

/-- A mark is a token whatever follows it, and it ends a number. -/
theorem token?_mark {t : Token} {c : Char} (h : t.mark? = some c) :
    isBlank c = false ∧ (c.isDigit = false ∧ c ≠ '.' ∧ c ≠ 'e' ∧ c ≠ 'E') ∧
      ∀ rest, token? c rest = some (t, rest) := by
  cases t <;> cases h <;> exact ⟨rfl, by decide, fun _ => rfl⟩

theorem tokensFrom_mark {t : Token} {c : Char} (h : t.mark? = some c) (found : List Token)
    (rest : List Char) : tokensFrom found (c :: rest) = tokensFrom (t :: found) rest := by
  obtain ⟨hblank, -, htoken⟩ := token?_mark h
  exact tokensFrom_token found hblank (htoken rest)

/-- A part is read up to the mark behind it, and reading goes on behind the mark. -/
theorem Reads.before_mark {text : List Char} {tokens : List Token} (reads : Reads text tokens)
    {t : Token} {c : Char} (h : t.mark? = some c) (found : List Token) (rest : List Char) :
    tokensFrom found (text ++ c :: rest) = tokensFrom ((tokens ++ [t]).reverse ++ found) rest := by
  obtain ⟨-, hends, -⟩ := token?_mark h
  rw [reads found (ends_cons hends), tokensFrom_mark h, List.reverse_append]
  rfl

/-- Tokens with commas between them. -/
def listed (parts : List (List Token)) : List Token := [.comma].intercalate parts

theorem listed_cons (part : List Token) {others : List (List Token)} (h : others ≠ [])
    (rest : List Token) :
    listed (part :: others) ++ rest = part ++ .comma :: (listed others ++ rest) := by
  rw [listed, List.intercalate_cons_of_ne_nil h, List.append_assoc, List.append_assoc]
  rfl

theorem listed_singleton (part : List Token) : listed [part] = part :=
  List.intercalate_singleton

/-- Parts with commas between them are read one after the other, up to the mark behind them. -/
theorem tokensFrom_separated {α : Type} {text : α → List Char} {tokens : α → List Token}
    {t : Token} {c : Char} (h : t.mark? = some c) {parts : List α} (hne : parts ≠ [])
    (reads : ∀ part ∈ parts, Reads (text part) (tokens part)) (found : List Token)
    (rest : List Char) :
    tokensFrom found (separated (parts.map text) ++ c :: rest) =
      tokensFrom ((listed (parts.map tokens) ++ [t]).reverse ++ found) rest := by
  induction parts generalizing found with
  | nil => exact absurd rfl hne
  | cons part others ih =>
    have hpart := reads part List.mem_cons_self
    by_cases hothers : others = []
    · subst hothers
      rw [List.map_singleton, List.map_singleton, listed_singleton]
      exact hpart.before_mark h found rest
    · have hrest := ih hothers fun other hmem => reads other (List.mem_cons_of_mem _ hmem)
      rw [List.map_cons, List.map_cons, separated_cons _ (by simpa using hothers),
        listed_cons _ (by simpa using hothers), List.append_assoc, List.cons_append,
        hpart.before_mark (t := .comma) rfl, hrest]
      simp only [List.reverse_append, List.reverse_cons, List.append_assoc]
      rfl

/-! ## Values -/

/-- The tokens of a number in a list. -/
def naturalTokens (value : Nat) : List Token := [.number (some value)]

/-- The tokens of a value. -/
def Leaf.tokens : Leaf → List Token
  | .natural value => naturalTokens value
  | .naturals values =>
    .openBracket :: (listed (values.map naturalTokens) ++ [.closeBracket])
  | .null => [.null]
  | .word text => [.string (some text)]

theorem reads_naturals (values : List Nat) : Reads (Leaf.naturals values).text
    (Leaf.naturals values).tokens := by
  intro found rest _
  rw [Leaf.text, Leaf.tokens, List.cons_append, List.cons_append, List.append_assoc,
    tokensFrom_mark (t := .openBracket) rfl, List.reverse_cons, List.append_assoc]
  by_cases hvalues : values = []
  · subst hvalues
    exact tokensFrom_mark rfl _ rest
  · exact tokensFrom_separated (t := .closeBracket) rfl hvalues
      (fun value _ => reads_decimal value) (.openBracket :: found) rest

theorem reads_leaf {leaf : Leaf} (h : leaf.Plain) : Reads leaf.text leaf.tokens := by
  cases leaf with
  | natural value => exact reads_decimal value
  | naturals values => exact reads_naturals values
  | null =>
    intro found rest _
    exact tokensFrom_token found rfl rfl
  | word text => exact reads_quoted h

theorem naturals?_tokens {values : List Nat} (h : values ≠ []) (rest : List Token) :
    naturals? (listed (values.map naturalTokens) ++ .closeBracket :: rest) =
      some (values, rest) := by
  induction values with
  | nil => exact absurd rfl h
  | cons value values ih =>
    by_cases hvalues : values = []
    · subst hvalues
      rfl
    · rw [List.map_cons, listed_cons _ (by simpa using hvalues)]
      show (naturals? (listed _ ++ .closeBracket :: rest)).map _ = _
      rw [ih hvalues]
      rfl

theorem leaf?_open {ts rest : List Token} {values : List Nat}
    (h : naturals? ts = some (values, rest)) :
    leaf? (.openBracket :: ts) = some (.naturals values, rest) := by
  rw [leaf?.eq_def]
  split
  · next heq => cases heq
  · next heq => cases heq
  · next heq => cases heq
  · next heq =>
    -- no list of numbers starts with its closing bracket
    cases heq
    cases h
  · next heq =>
    cases heq
    rw [h]
    rfl
  · next hopen => exact absurd rfl (hopen ts)

/-- A value is found in its tokens, and what follows them is left. -/
theorem leaf?_tokens (leaf : Leaf) (rest : List Token) :
    leaf? (leaf.tokens ++ rest) = some (leaf, rest) := by
  cases leaf with
  | naturals values =>
    by_cases hvalues : values = []
    · subst hvalues
      rfl
    · rw [Leaf.tokens, List.cons_append, List.append_assoc, List.singleton_append]
      exact leaf?_open (naturals?_tokens hvalues rest)
  | _ => rfl

/-! ## Objects -/

/-- The tokens of a member. -/
def memberTokens (member : String × Leaf) : List Token :=
  .string (some member.1) :: .colon :: member.2.tokens

theorem reads_member {member : String × Leaf} (hkey : ∀ c ∈ member.1.toList, Plain c)
    (hleaf : member.2.Plain) : Reads (memberText member) (memberTokens member) := by
  intro found rest ends
  rw [memberText, List.append_assoc, List.cons_append,
    (reads_quoted hkey).before_mark (t := .colon) rfl, reads_leaf hleaf _ ends, memberTokens,
    List.reverse_cons, List.reverse_cons]
  simp only [List.reverse_append, List.append_assoc]
  rfl

theorem leaves?_last {ts : List Token} {key : String} {leaf : Leaf}
    (h : leaf? ts = some (leaf, [.closeBrace])) :
    leaves? (.string (some key) :: .colon :: ts) = some [(key, leaf)] := by
  rw [leaves?]
  split
  · next hnone => rw [h] at hnone; cases hnone
  · next hsome =>
    rw [h] at hsome
    obtain ⟨rfl, rfl⟩ := Prod.mk.inj (Option.some.inj hsome)
    rfl

theorem leaves?_more {ts rest : List Token} {key : String} {leaf : Leaf}
    (h : leaf? ts = some (leaf, .comma :: rest)) :
    leaves? (.string (some key) :: .colon :: ts) = (leaves? rest).map ((key, leaf) :: ·) := by
  rw [leaves?]
  split
  · next hnone => rw [h] at hnone; cases hnone
  · next hsome =>
    rw [h] at hsome
    obtain ⟨rfl, rfl⟩ := Prod.mk.inj (Option.some.inj hsome)
    rfl

theorem leaves?_tokens {members : List (String × Leaf)} (h : members ≠ []) :
    leaves? (listed (members.map memberTokens) ++ [.closeBrace]) = some members := by
  induction members with
  | nil => exact absurd rfl h
  | cons member others ih =>
    by_cases hothers : others = []
    · subst hothers
      rw [List.map_singleton, listed_singleton]
      exact leaves?_last (leaf?_tokens member.2 _)
    · rw [List.map_cons, listed_cons _ (by simpa using hothers)]
      refine (leaves?_more (leaf?_tokens member.2 _)).trans ?_
      rw [ih hothers]
      rfl

theorem object?_open {ts : List Token} {members : List (String × Leaf)}
    (h : leaves? ts = some members) : object? (.openBrace :: ts) = some members := by
  rw [object?.eq_def]
  split
  · next heq =>
    -- no member starts with the closing brace
    cases heq
    rw [leaves?.eq_def] at h
    cases h
  · next heq =>
    cases heq
    exact h
  · next hopen => exact absurd rfl (hopen ts)

theorem object?_tokens (members : List (String × Leaf)) :
    object? (.openBrace :: (listed (members.map memberTokens) ++ [.closeBrace])) =
      some members := by
  by_cases h : members = []
  · subst h
    rfl
  · exact object?_open (leaves?_tokens h)

theorem tokens?_compact {members : List (String × Leaf)}
    (hplain : ∀ member ∈ members, (∀ c ∈ member.1.toList, Plain c) ∧ member.2.Plain) :
    tokens? (String.ofList (compact members)) =
      some (.openBrace :: (listed (members.map memberTokens) ++ [.closeBrace])) := by
  rw [tokens?, String.toList_ofList, compact_eq, tokensFrom_mark (t := .openBrace) rfl]
  by_cases h : members = []
  · subst h
    exact (tokensFrom_mark (t := .closeBrace) rfl _ []).trans (by rw [tokensFrom]; rfl)
  · have hreads := tokensFrom_separated (t := .closeBrace) rfl h
      (fun member hmem => reads_member (hplain member hmem).1 (hplain member hmem).2)
      [.openBrace] []
    rw [hreads, tokensFrom, List.reverse_append, List.reverse_reverse]
    rfl

/-- **Compact text reads back**: the members are found again, in their order and with all that they
hold, as long as no key or word needs an escape. -/
theorem flat?_compact {members : List (String × Leaf)}
    (hplain : ∀ member ∈ members, (∀ c ∈ member.1.toList, Plain c) ∧ member.2.Plain) :
    flat? (String.ofList (compact members)) = some members := by
  rw [flat?, tokens?_compact hplain]
  exact object?_tokens members

end Firmware.Json
