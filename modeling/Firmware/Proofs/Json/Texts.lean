/-
  Firmware: what tokens are written as. A text that can be cut into tokens is made of the texts of
  the grammar with blanks between them: whatever the reader takes for digits, a number or a string
  is one.
-/
import Firmware.Proofs.Json.Lexing
import Firmware.Proofs.Text.Numerals

namespace Firmware.Json

/-! ## Numbers -/

theorem exists_digit {c : Char} (h : c.isDigit = true) :
    ∃ digit : Fin 10, digit.val.digitChar = c :=
  have ⟨hd, hchar⟩ := Numeral.digitChar_of_isDigit h
  ⟨⟨_, hd⟩, hchar⟩

theorem exists_digitText {cs : List Char} (h : ∀ c ∈ cs, c.isDigit = true) :
    ∃ ds : List (Fin 10), cs = digitText ds := by
  induction cs with
  | nil => exact ⟨[], rfl⟩
  | cons c rest ih =>
    obtain ⟨digit, rfl⟩ := exists_digit (h c List.mem_cons_self)
    obtain ⟨ds, rfl⟩ := ih fun d hd => h d (List.mem_cons_of_mem _ hd)
    exact ⟨digit :: ds, rfl⟩

theorem exists_digits_fst {cs : List Char} (h : (digits cs).1 ≠ []) :
    ∃ ds : List (Fin 10), ds ≠ [] ∧ (digits cs).1 = digitText ds ∧
      cs = digitText ds ++ (digits cs).2 := by
  obtain ⟨ds, hds⟩ := exists_digitText (List.all_eq_true.mp List.all_takeWhile)
  refine ⟨ds, ?_, hds, ?_⟩
  · rintro rfl
    exact h hds
  · rw [← hds]
    exact List.takeWhile_append_dropWhile.symm

theorem text_of_skipDigits {cs rest : List Char} (h : skipDigits cs = some rest) :
    ∃ ds : List (Fin 10), ds ≠ [] ∧ cs = digitText ds ++ rest := by
  rw [skipDigits] at h
  split at h
  · cases h
  · next hne =>
    obtain rfl := Option.some.inj h
    obtain ⟨ds, hds, -, htext⟩ := exists_digits_fst hne
    exact ⟨ds, hds, htext⟩

theorem text_of_integerPart {cs found rest : List Char} (h : integerPart cs = some (found, rest)) :
    ∃ whole : List (Fin 10), whole ≠ [] ∧ (∀ more, whole = 0 :: more → more = []) ∧
      cs = digitText whole ++ rest := by
  rw [integerPart.eq_def] at h
  split at h
  · next after =>
    obtain ⟨rfl, rfl⟩ := Prod.mk.inj (Option.some.inj h)
    exact ⟨[0], List.cons_ne_nil _ _, fun more h => (List.cons.inj h).2.symm, rfl⟩
  · next hzero =>
    split at h
    · cases h
    · next hne =>
      obtain ⟨-, rfl⟩ := Prod.mk.inj (Option.some.inj h)
      obtain ⟨whole, hwhole, -, htext⟩ := exists_digits_fst hne
      refine ⟨whole, hwhole, ?_, htext⟩
      rintro more rfl
      exact absurd htext (hzero _)

theorem text_of_fraction {cs rest : List Char} {found : Bool}
    (h : fraction cs = some (found, rest)) :
    ∃ f? : Option Fraction, cs = f?.elim [] Fraction.text ++ rest := by
  rw [fraction.eq_def] at h
  split at h
  · obtain ⟨after, hdigits, hafter⟩ := Option.map_eq_some_iff.mp h
    obtain ⟨-, rfl⟩ := Prod.mk.inj hafter
    obtain ⟨ds, hds, rfl⟩ := text_of_skipDigits hdigits
    exact ⟨some ⟨ds, hds⟩, rfl⟩
  · obtain ⟨-, rfl⟩ := Prod.mk.inj (Option.some.inj h)
    exact ⟨none, rfl⟩

theorem text_of_skipSign (cs : List Char) :
    ∃ sign ∈ [[], ['+'], ['-']], cs = sign ++ skipSign cs := by
  rw [skipSign.eq_def]
  split
  · exact ⟨['+'], by decide, rfl⟩
  · exact ⟨['-'], by decide, rfl⟩
  · exact ⟨[], by decide, rfl⟩

theorem text_of_marker {marker : Char} (hmarker : marker ∈ ['e', 'E']) {cs rest : List Char}
    {found : Bool} (h : (skipDigits (skipSign cs)).map (true, ·) = some (found, rest)) :
    ∃ e? : Option Exponent, marker :: cs = e?.elim [] Exponent.text ++ rest := by
  obtain ⟨after, hdigits, hafter⟩ := Option.map_eq_some_iff.mp h
  obtain ⟨-, rfl⟩ := Prod.mk.inj hafter
  obtain ⟨ds, hds, htext⟩ := text_of_skipDigits hdigits
  obtain ⟨sign, hsign, hcs⟩ := text_of_skipSign cs
  refine ⟨some ⟨marker, sign, ds, hmarker, hsign, hds⟩, ?_⟩
  show marker :: cs = marker :: sign ++ digitText ds ++ after
  rw [hcs, htext, List.append_assoc]
  rfl

theorem text_of_exponent {cs rest : List Char} {found : Bool}
    (h : exponent cs = some (found, rest)) :
    ∃ e? : Option Exponent, cs = e?.elim [] Exponent.text ++ rest := by
  rw [exponent.eq_def] at h
  split at h
  · exact text_of_marker (by simp) h
  · exact text_of_marker (by simp) h
  · obtain ⟨-, rfl⟩ := Prod.mk.inj (Option.some.inj h)
    exact ⟨none, rfl⟩

/-- What is read as a number is the text of one, with the sign that stands before it. -/
theorem text_of_unsigned {cs rest : List Char} {value : Option Nat}
    (h : unsigned cs = some (value, rest)) (negative : Bool) :
    ∃ n : Number, (if negative then ['-'] else []) ++ cs = n.text ++ rest := by
  rw [unsigned] at h
  split at h
  · cases h
  next hinteger =>
  split at h
  · cases h
  next hfraction =>
  split at h
  · cases h
  next hexponent =>
  obtain ⟨-, rfl⟩ := Prod.mk.inj (Option.some.inj h)
  obtain ⟨whole, hwhole, hunpadded, rfl⟩ := text_of_integerPart hinteger
  obtain ⟨f?, rfl⟩ := text_of_fraction hfraction
  obtain ⟨e?, rfl⟩ := text_of_exponent hexponent
  refine ⟨⟨negative, whole, f?, e?, hwhole, hunpadded⟩, ?_⟩
  simp only [Number.text, Number.tailText, List.append_assoc]

/-! ## Strings -/

theorem exists_hexDigit {c : Char} {value : Nat} (h : Numeral.hexDigit? c = some value) :
    ∃ digit : HexDigit, digit.char = c ∧ digit.value.val = value := by
  obtain ⟨hvalue, rfl | rfl⟩ := Numeral.hexDigit?_eq_some_iff.mp h
  · exact ⟨⟨⟨value, hvalue⟩, false⟩, rfl, rfl⟩
  · exact ⟨⟨⟨value, hvalue⟩, true⟩, rfl, rfl⟩

theorem exists_extend {acc value : Nat} {c : Char} {rest : List Char}
    (h : Numeral.extend 16 Numeral.hexDigit? acc (c :: rest) = some value) :
    ∃ digit : HexDigit, digit.char = c ∧
      Numeral.extend 16 Numeral.hexDigit? (acc * 16 + digit.value.val) rest = some value := by
  rw [Numeral.extend] at h
  split at h
  · next n hn =>
    obtain ⟨digit, hchar, rfl⟩ := exists_hexDigit hn
    exact ⟨digit, hchar, h⟩
  · cases h

theorem exists_codeUnit {a b c d : Char} {value : Nat} (h : unit? a b c d = some value) :
    ∃ u : CodeUnit, u.text = ['\\', 'u', a, b, c, d] ∧ u.value = value := by
  have hextend : Numeral.extend 16 Numeral.hexDigit? 0 [a, b, c, d] = some value := h
  obtain ⟨first, rfl, hfirst⟩ := exists_extend hextend
  obtain ⟨second, rfl, hsecond⟩ := exists_extend hfirst
  obtain ⟨third, rfl, hthird⟩ := exists_extend hsecond
  obtain ⟨fourth, rfl, hfourth⟩ := exists_extend hthird
  refine ⟨⟨first, second, third, fourth⟩, rfl, ?_⟩
  rw [Nat.zero_mul, Nat.zero_add] at hfourth
  exact Option.some.inj hfourth

theorem known_of_escaped? {letter c : Char} (h : escaped? letter = some c) :
    (letter, c) ∈ escapes := by
  simp only [escaped?] at h
  repeat
    split at h
    · next hletter =>
      obtain rfl := hletter
      obtain rfl := Option.some.inj h
      simp [escapes]
  cases h

/-- What is read as a string is written up to its quote, piece by piece. -/
theorem text_of_pieces {found all : List Piece} {cs rest : List Char}
    (h : pieces found cs = some (all, rest)) :
    ∃ written : List Written, cs = written.flatMap Written.text ++ '"' :: rest ∧
      all = found.reverse ++ written.map Written.piece := by
  fun_induction pieces found cs with
  | case1 | case4 | case6 | case7 => cases h
  | case2 found after =>
    obtain ⟨rfl, rfl⟩ := Prod.mk.inj (Option.some.inj h)
    exact ⟨[], rfl, (List.append_nil _).symm⟩
  | case3 found a b c d after u hunit ih =>
    obtain ⟨unit, htext, rfl⟩ := exists_codeUnit hunit
    obtain ⟨written, rfl, rfl⟩ := ih h
    refine ⟨.unit unit :: written, ?_, by simp [Written.piece]⟩
    rw [List.flatMap_cons, Written.text, htext]
    rfl
  | case5 found letter after _ c hescaped ih =>
    obtain ⟨written, rfl, rfl⟩ := ih h
    exact ⟨.escape letter c (known_of_escaped? hescaped) :: written, rfl, by simp [Written.piece]⟩
  | case8 found c after hquote _ _ hplain ih =>
    obtain ⟨hbackslash, hspace⟩ := not_or.mp hplain
    obtain ⟨written, rfl, rfl⟩ := ih h
    have hallowed : Plain c := ⟨Char.not_lt.mp hspace, fun h => hquote h, hbackslash⟩
    exact ⟨.plain c hallowed :: written, rfl, by simp [Written.piece]⟩

theorem written_of_unit {written : List Written} {u : Nat} {ps : List Piece}
    (h : written.map Written.piece = .unit u :: ps) :
    ∃ (c : CodeUnit) (rest : List Written), written = .unit c :: rest ∧ c.value = u ∧
      rest.map Written.piece = ps := by
  obtain ⟨step, rest, rfl, hstep, hrest⟩ := List.map_eq_cons_iff.mp h
  cases step with
  | plain c _ => cases hstep
  | escape letter c _ => cases hstep
  | unit c => exact ⟨c, rest, rfl, Piece.unit.inj hstep, hrest⟩

/-- What is joined is spelled: surrogates come in pairs. -/
theorem spells_of_join {ps : List Piece} {written : List Written}
    (hwritten : written.map Written.piece = ps) {found text : List Char}
    (h : join found ps = some text) :
    ∃ more, text = found.reverse ++ more ∧ Spells written more := by
  fun_induction join found ps generalizing written with
  | case1 found =>
    obtain rfl := List.map_eq_nil_iff.mp hwritten
    obtain rfl := Option.some.inj h
    exact ⟨[], (List.append_nil _).symm, .nil⟩
  | case2 found c ps ih =>
    obtain ⟨step, rest, rfl, hstep, hrest⟩ := List.map_eq_cons_iff.mp hwritten
    obtain ⟨more, rfl, hmore⟩ := ih hrest h
    refine ⟨c :: more, by simp, ?_⟩
    cases step with
    | plain d _ =>
      obtain rfl := Piece.char.inj hstep
      exact .plain hmore
    | escape letter d _ =>
      obtain rfl := Piece.char.inj hstep
      exact .escape hmore
    | unit u => cases hstep
  | case3 found u v ps hlead htrail ih =>
    obtain ⟨lead, behind, rfl, rfl, hbehind⟩ := written_of_unit hwritten
    obtain ⟨trail, rest, rfl, rfl, hrest⟩ := written_of_unit hbehind
    obtain ⟨more, rfl, hmore⟩ := ih hrest h
    exact ⟨_ :: more, by simp,
      .pair ((isLead_eq lead).mp hlead) ((isTrail_eq trail).mp htrail) hmore⟩
  | case4 | case5 | case7 => cases h
  | case6 found u v ps hlead htrail ih =>
    obtain ⟨unit, rest, rfl, rfl, hrest⟩ := written_of_unit hwritten
    obtain ⟨more, rfl, hmore⟩ := ih hrest h
    exact ⟨_ :: more, by simp, .unit (fun h => hlead ((isLead_eq unit).mpr h))
      (fun h => htrail ((isTrail_eq unit).mpr h)) hmore⟩
  | case8 found u ps _ hplain ih =>
    obtain ⟨unit, rest, rfl, rfl, hrest⟩ := written_of_unit hwritten
    obtain ⟨more, rfl, hmore⟩ := ih hrest h
    rw [Bool.or_eq_true, not_or] at hplain
    exact ⟨_ :: more, by simp, .unit (fun h => hplain.1 ((isLead_eq unit).mpr h))
      (fun h => hplain.2 ((isTrail_eq unit).mpr h)) hmore⟩

theorem spells_of_spelled? {written : List Written} {text : String}
    (h : spelled? written = some text) : Spells written text.toList := by
  obtain ⟨chars, hjoin, rfl⟩ := Option.map_eq_some_iff.mp h
  obtain ⟨more, rfl, hmore⟩ := spells_of_join rfl hjoin
  rw [String.toList_ofList]
  exact hmore

/-! ## Tokens -/

/-- The character that a mark is written as. -/
def Token.mark? : Token → Option Char
  | .openBrace => some '{'
  | .closeBrace => some '}'
  | .openBracket => some '['
  | .closeBracket => some ']'
  | .colon => some ':'
  | .comma => some ','
  | _ => none

/-- What a token is written as. -/
inductive Token.Text : Token → List Char → Prop where
  | mark {t : Token} {c : Char} (h : t.mark? = some c) : Text t [c]
  | null : Text .null ['n', 'u', 'l', 'l']
  | yes : Text (.boolean true) ['t', 'r', 'u', 'e']
  | no : Text (.boolean false) ['f', 'a', 'l', 's', 'e']
  | number (natural? : Option Nat) (n : Number) : Text (.number natural?) n.text
  | string (written : List Written) : Text (.string (spelled? written)) (stringText written)

/-- What tokens are written as, with blanks before each of them and behind all. -/
inductive Texts : List Token → List Char → Prop where
  | nil (space : Space) : Texts [] space.chars
  | cons (before : Space) {t : Token} {text : List Char} {ts : List Token} {cs : List Char}
    (first : t.Text text) (rest : Texts ts cs) : Texts (t :: ts) (before.chars ++ (text ++ cs))

theorem Texts.blank {c : Char} (h : isBlank c = true) {ts : List Token} {cs : List Char}
    (texts : Texts ts cs) : Texts ts (c :: cs) := by
  have hblank : c ∈ [' ', '\t', '\n', '\r'] := by
    simpa [isBlank, or_assoc] using h
  have hcons (space : Space) : ∀ d ∈ c :: space.chars, d ∈ [' ', '\t', '\n', '\r'] :=
    List.forall_mem_cons.mpr ⟨hblank, space.blank⟩
  cases texts with
  | nil space => exact .nil ⟨c :: space.chars, hcons space⟩
  | cons before first rest => exact .cons ⟨c :: before.chars, hcons before⟩ first rest

theorem text_of_token? {c : Char} {cs rest : List Char} {t : Token}
    (h : token? c cs = some (t, rest)) : ∃ text, t.Text text ∧ c :: cs = text ++ rest := by
  rw [token?.eq_def] at h
  split at h
  iterate 6
    · obtain ⟨rfl, rfl⟩ := Prod.mk.inj (Option.some.inj h)
      exact ⟨_, .mark rfl, rfl⟩
  · obtain ⟨⟨found, after⟩, hpieces, hafter⟩ := Option.map_eq_some_iff.mp h
    obtain ⟨rfl, rfl⟩ := Prod.mk.inj hafter
    obtain ⟨written, rfl, rfl⟩ := text_of_pieces hpieces
    refine ⟨_, .string written, ?_⟩
    rw [stringText, List.cons_append, List.append_assoc]
    rfl
  · obtain ⟨⟨value, after⟩, hunsigned, hafter⟩ := Option.map_eq_some_iff.mp h
    obtain ⟨rfl, rfl⟩ := Prod.mk.inj hafter
    obtain ⟨n, hn⟩ := text_of_unsigned hunsigned true
    exact ⟨_, .number none n, hn⟩
  · split at h
    · obtain ⟨rfl, rfl⟩ := Prod.mk.inj (Option.some.inj h)
      exact ⟨_, .null, rfl⟩
    · cases h
  · split at h
    · obtain ⟨rfl, rfl⟩ := Prod.mk.inj (Option.some.inj h)
      exact ⟨_, .yes, rfl⟩
    · cases h
  · split at h
    · obtain ⟨rfl, rfl⟩ := Prod.mk.inj (Option.some.inj h)
      exact ⟨_, .no, rfl⟩
    · cases h
  · obtain ⟨⟨value, after⟩, hunsigned, hafter⟩ := Option.map_eq_some_iff.mp h
    obtain ⟨rfl, rfl⟩ := Prod.mk.inj hafter
    obtain ⟨n, hn⟩ := text_of_unsigned hunsigned false
    exact ⟨_, .number value n, hn⟩

theorem Texts.mark {t : Token} {c : Char} (h : t.mark? = some c) {ts : List Token} {cs : List Char}
    (texts : Texts (t :: ts) cs) :
    ∃ (before : Space) (more : List Char), cs = before.chars ++ c :: more ∧ Texts ts more := by
  cases texts with
  | cons before first rest =>
    cases first with
    | mark hmark =>
      obtain rfl := Option.some.inj (hmark.symm.trans h)
      exact ⟨before, _, rfl, rest⟩
    | _ => cases h

theorem Texts.name {key : Option String} {ts : List Token} {cs : List Char}
    (texts : Texts (.string key :: .colon :: ts) cs) :
    ∃ (name : Name) (more : List Char), cs = name.text ++ more ∧ Texts ts more := by
  cases texts with
  | cons before first rest =>
    cases first with
    | mark hmark => cases hmark
    | string written =>
      obtain ⟨after, more, rfl, hmore⟩ := rest.mark rfl
      refine ⟨⟨before, written, after⟩, more, ?_, hmore⟩
      simp only [Name.text, List.append_assoc, List.singleton_append]

/-- **A text that is cut into tokens is what they are written as.** -/
theorem texts_of_tokensFrom {found ts : List Token} {cs : List Char}
    (h : tokensFrom found cs = some ts) : ∃ more, ts = found.reverse ++ more ∧ Texts more cs := by
  fun_induction tokensFrom found cs with
  | case1 found =>
    obtain rfl := Option.some.inj h
    exact ⟨[], (List.append_nil _).symm, .nil .empty⟩
  | case2 found c rest hblank ih =>
    obtain ⟨more, rfl, hmore⟩ := ih h
    exact ⟨more, rfl, hmore.blank hblank⟩
  | case3 => cases h
  | case4 found c rest hblank t left htoken ih =>
    obtain ⟨more, rfl, hmore⟩ := ih h
    obtain ⟨text, hfirst, htext⟩ := text_of_token? htoken
    refine ⟨t :: more, by simp, ?_⟩
    rw [htext]
    exact .cons .empty hfirst hmore

end Firmware.Json
