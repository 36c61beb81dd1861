/-
  Firmware: compact text is JSON text. The decimal of a natural number is a number of the grammar
  with that value, and with words and keys that need no escape the whole object is a document that
  gives its members.
-/
import Firmware.Json.Compact
import Firmware.Proofs.Json.Lexing

namespace Firmware.Json

/-! ## Numbers -/

theorem digitText_append (digits more : List (Fin 10)) :
    digitText (digits ++ more) = digitText digits ++ digitText more :=
  List.map_append

theorem ne_nil_of_decimal {n : Nat} {whole : List (Fin 10)}
    (h : digitText whole = Numeral.decimal n) : whole ≠ [] := by
  rintro rfl
  exact Numeral.decimal_ne_nil n h.symm

/-- Digits that are printed for a number are worth that number: they read back as it. -/
theorem digitValue_of_decimal {n : Nat} {whole : List (Fin 10)}
    (h : digitText whole = Numeral.decimal n) : digitValue whole = n := by
  have hread := decimalValue?_digitText (ne_nil_of_decimal h)
  rw [h, Numeral.decimalValue?_decimal] at hread
  exact (Option.some.inj hread).symm

/-- The decimal of a number is digits, and no zero stands in front of others. -/
theorem exists_digits (n : Nat) : ∃ whole : List (Fin 10),
    digitText whole = Numeral.decimal n ∧ ∀ rest, whole = 0 :: rest → rest = [] := by
  induction n using Nat.strongRecOn with
  | ind n ih =>
    by_cases hsmall : n < 10
    · refine ⟨[⟨n, hsmall⟩], ?_, fun rest h => (List.cons.inj h).2.symm⟩
      rw [Numeral.decimal, Nat.toDigits_of_lt_base hsmall]
      rfl
    · obtain ⟨whole, htext, hunpadded⟩ := ih (n / 10) (by omega)
      have hlast : n % 10 < 10 := Nat.mod_lt n (by decide)
      refine ⟨whole ++ [⟨n % 10, hlast⟩], ?_, ?_⟩
      · rw [digitText_append, htext, Numeral.decimal, Numeral.decimal,
          Nat.toDigits_of_base_le (by decide) (Nat.le_of_not_lt hsmall)]
        rfl
      · -- a leading zero would be all of the digits before the last, and these are not worth zero
        intro rest h
        obtain ⟨first, others, rfl⟩ := List.exists_cons_of_ne_nil (ne_nil_of_decimal htext)
        obtain ⟨rfl, -⟩ := List.cons.inj h
        obtain rfl := hunpadded others rfl
        have hzero : 0 = n / 10 := digitValue_of_decimal htext
        omega

theorem exists_number (n : Nat) :
    ∃ number : Number, number.text = Numeral.decimal n ∧ number.natural? = some n := by
  obtain ⟨whole, htext, hunpadded⟩ := exists_digits n
  refine ⟨{ whole, whole_ne_nil := ne_nil_of_decimal htext, unpadded := hunpadded }, ?_, ?_⟩
  · show [] ++ digitText whole ++ [] = _
    rw [List.nil_append, List.append_nil, htext]
  · show some (digitValue whole) = _
    rw [digitValue_of_decimal htext]

/-! ## Leaves -/

/-- A leaf has no text that needs an escape. -/
def Leaf.Plain : Leaf → Prop
  | .word text => ∀ c ∈ text.toList, Json.Plain c
  | _ => True

/-- The natural number that a leaf is. -/
def Leaf.natural? : Leaf → Option Nat
  | .natural value => some value
  | _ => none

theorem separated_cons (text : List Char) {rest : List (List Char)} (h : rest ≠ []) :
    separated (text :: rest) = text ++ ',' :: separated rest := by
  obtain ⟨next, others, rfl⟩ := List.exists_cons_of_ne_nil h
  rfl

theorem exists_elements {values : List Nat} (h : values ≠ []) :
    ∃ elements : Elements, elements.text = separated (values.map Numeral.decimal) ++ [']'] := by
  induction values with
  | nil => exact absurd rfl h
  | cons value rest ih =>
    obtain ⟨number, hnumber, -⟩ := exists_number value
    by_cases hrest : rest = []
    · subst hrest
      refine ⟨.last .empty (.number number) .empty, ?_⟩
      show number.text ++ [']'] = _
      rw [hnumber]
      rfl
    · obtain ⟨elements, helements⟩ := ih hrest
      refine ⟨.more .empty (.number number) .empty elements, ?_⟩
      show number.text ++ ',' :: elements.text = _
      rw [List.map_cons, separated_cons _ (by simpa using hrest), hnumber, helements,
        List.append_assoc]
      rfl

theorem stringText_word {text : String} (h : ∀ c ∈ text.toList, Plain c) :
    stringText (plainly text.toList h) = quoted text :=
  stringText_plainly text.toList h

theorem Leaf.exists_value {leaf : Leaf} (h : leaf.Plain) :
    ∃ value : Value, value.text = leaf.text ∧ value.natural? = leaf.natural? := by
  cases leaf with
  | natural n =>
    obtain ⟨number, htext, hvalue⟩ := exists_number n
    exact ⟨.number number, htext, hvalue⟩
  | naturals values =>
    by_cases hvalues : values = []
    · subst hvalues
      exact ⟨.emptyArray .empty, rfl, rfl⟩
    · obtain ⟨elements, helements⟩ := exists_elements hvalues
      exact ⟨.array elements, congrArg ('[' :: ·) helements, rfl⟩
  | null => exact ⟨.null, rfl, rfl⟩
  | word text => exact ⟨.string (plainly text.toList h), stringText_word h, rfl⟩

/-! ## Objects -/

/-- The text of a member. -/
def memberText (member : String × Leaf) : List Char := quoted member.1 ++ ':' :: member.2.text

theorem compact_eq (members : List (String × Leaf)) :
    compact members = '{' :: (separated (members.map memberText) ++ ['}']) := rfl

theorem exists_members {members : List (String × Leaf)} (h : members ≠ [])
    (hplain : ∀ member ∈ members, (∀ c ∈ member.1.toList, Plain c) ∧ member.2.Plain) :
    ∃ (written : Members) (given : List (String × Value)),
      written.text = separated (members.map memberText) ++ ['}'] ∧ written.Gives given ∧
      given.map (fun member => (member.1, member.2.natural?)) =
        members.map fun member => (member.1, member.2.natural?) := by
  induction members with
  | nil => exact absurd rfl h
  | cons member rest ih =>
    obtain ⟨key, leaf⟩ := member
    obtain ⟨hkey, hleaf⟩ := hplain _ (List.mem_cons_self ..)
    obtain ⟨value, hvalue, hnatural⟩ := Leaf.exists_value hleaf
    have hname : (Name.mk .empty (plainly key.toList hkey) .empty).text = quoted key ++ [':'] := by
      show stringText _ ++ [':'] = _
      rw [stringText_word]
    by_cases hrest : rest = []
    · subst hrest
      refine ⟨.last ⟨.empty, plainly key.toList hkey, .empty⟩ .empty value .empty, [(key, value)],
        ?_, .last (spells_plainly _ _), ?_⟩
      · show Name.text _ ++ (value.text ++ ['}']) = memberText (key, leaf) ++ ['}']
        rw [hname, hvalue, memberText, List.append_assoc, List.append_assoc]
        rfl
      · rw [List.map_singleton, List.map_singleton, hnatural]
    · obtain ⟨written, given, htext, hgives, hgiven⟩ :=
        ih hrest fun member hmem => hplain member (List.mem_cons_of_mem _ hmem)
      refine ⟨.more ⟨.empty, plainly key.toList hkey, .empty⟩ .empty value .empty written,
        (key, value) :: given, ?_, .more (spells_plainly _ _) hgives, ?_⟩
      · show Name.text _ ++ (value.text ++ ',' :: written.text) = _
        rw [hname, hvalue, htext, List.map_cons, separated_cons _ (by simpa using hrest),
          memberText]
        simp only [List.append_assoc, List.cons_append, List.nil_append]
      · rw [List.map_cons, List.map_cons, hgiven, hnatural]

/-- **Compact text is JSON text**: a document that gives the members in their order. -/
theorem compact_document {members : List (String × Leaf)}
    (hplain : ∀ member ∈ members, (∀ c ∈ member.1.toList, Plain c) ∧ member.2.Plain) :
    ∃ (document : Document) (given : List (String × Value)),
      document.text = String.ofList (compact members) ∧ document.value.Gives given ∧
      given.map (fun member => (member.1, member.2.natural?)) =
        members.map fun member => (member.1, member.2.natural?) := by
  by_cases h : members = []
  · subst h
    exact ⟨⟨.empty, .emptyObject .empty, .empty⟩, [], rfl, .empty, rfl⟩
  · obtain ⟨written, given, htext, hgives, hgiven⟩ := exists_members h hplain
    refine ⟨⟨.empty, .object written, .empty⟩, given, ?_, .object hgives, hgiven⟩
    show String.ofList (('{' :: written.text) ++ []) = _
    rw [List.append_nil, htext, compact_eq]

end Firmware.Json
