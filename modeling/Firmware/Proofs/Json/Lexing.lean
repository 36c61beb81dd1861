/-
  Firmware: the tokens of a document. What a value is written as is read as the tokens of that
  value, and reading goes on behind it. Only a number could be read on into what follows it, and
  what may follow a value, blanks, a comma, a closing bracket or nothing, does not go on with one.
-/
import Firmware.Json.Token
import Firmware.Proofs.Json.Grammar

namespace Firmware.Json

/-! ## Digits -/

theorem decimalDigit?_digit (digit : Fin 10) :
    Numeral.decimalDigit? digit.val.digitChar = some digit.val :=
  Numeral.decimalDigit?_digitChar digit.isLt

theorem isDigit_of_mem_digitText {digits : List (Fin 10)} {c : Char} (h : c ∈ digitText digits) :
    c.isDigit = true := by
  obtain ⟨digit, -, rfl⟩ := List.mem_map.mp h
  exact Nat.isDigit_digitChar.trans (decide_eq_true digit.isLt)

theorem digitText_ne_nil {digits : List (Fin 10)} (h : digits ≠ []) : digitText digits ≠ [] :=
  fun hmap => h (List.map_eq_nil_iff.mp hmap)

theorem extend_digitText (value : Nat) (digits : List (Fin 10)) :
    Numeral.extend 10 Numeral.decimalDigit? value (digitText digits) =
      some (digits.foldl (fun value digit => value * 10 + digit.val) value) := by
  induction digits generalizing value with
  | nil => rfl
  | cons digit rest ih =>
    rw [digitText, List.map_cons, Numeral.extend, decimalDigit?_digit]
    exact ih _

theorem decimalValue?_digitText {digits : List (Fin 10)} (h : digits ≠ []) :
    Numeral.decimalValue? (digitText digits) = some (digitValue digits) := by
  cases digits with
  | nil => exact absurd rfl h
  | cons digit rest => exact extend_digitText 0 (digit :: rest)

/-- Digits do not go on. -/
def NoDigit (rest : List Char) : Prop := ∀ c ∈ rest.head?, c.isDigit = false

theorem digits_digitText (ds : List (Fin 10)) {rest : List Char} (stop : NoDigit rest) :
    digits (digitText ds ++ rest) = (digitText ds, rest) := by
  have hall : ∀ c ∈ digitText ds, c.isDigit = true := fun c => isDigit_of_mem_digitText
  have htake : rest.takeWhile Char.isDigit = [] := by
    cases rest with
    | nil => rfl
    | cons c rest => rw [List.takeWhile_cons, stop c rfl]; rfl
  have hdrop : rest.dropWhile Char.isDigit = rest := by
    cases rest with
    | nil => rfl
    | cons c rest => rw [List.dropWhile_cons, stop c rfl]; rfl
  rw [digits, List.takeWhile_append_of_pos hall, List.dropWhile_append_of_pos hall, htake, hdrop,
    List.append_nil]

theorem skipDigits_digitText {ds : List (Fin 10)} (h : ds ≠ []) {rest : List Char}
    (stop : NoDigit rest) : skipDigits (digitText ds ++ rest) = some rest := by
  rw [skipDigits, digits_digitText ds stop, if_neg (digitText_ne_nil h)]

/-! ## Numbers -/

/-- A number does not go on. -/
structure Ends (rest : List Char) : Prop where
  noDigit : NoDigit rest
  noPoint : ∀ more, rest ≠ '.' :: more
  noMarker : ∀ c more, rest = c :: more → c ≠ 'e' ∧ c ≠ 'E'

theorem ends_nil : Ends [] := ⟨nofun, nofun, nofun⟩

theorem ends_cons {c : Char} {rest : List Char}
    (h : c.isDigit = false ∧ c ≠ '.' ∧ c ≠ 'e' ∧ c ≠ 'E') : Ends (c :: rest) where
  noDigit := by
    rintro _ ⟨rfl⟩
    exact h.1
  noPoint := fun more hmore => h.2.1 (List.cons.inj hmore).1
  noMarker := by
    rintro _ _ ⟨rfl, rfl⟩
    exact h.2.2

theorem skipSign_digitText {ds : List (Fin 10)} (h : ds ≠ []) (rest : List Char) :
    skipSign (digitText ds ++ rest) = digitText ds ++ rest := by
  cases ds with
  | nil => exact absurd rfl h
  | cons digit ds =>
    have hdigit : digit.val.digitChar.isDigit = true :=
      Nat.isDigit_digitChar.trans (decide_eq_true digit.isLt)
    rw [digitText, List.map_cons, List.cons_append, skipSign.eq_def]
    split
    · next hsign => rw [(List.cons.inj hsign).1] at hdigit; cases hdigit
    · next hsign => rw [(List.cons.inj hsign).1] at hdigit; cases hdigit
    · rfl

theorem integerPart_digitText {whole : List (Fin 10)} (h : whole ≠ [])
    (unpadded : ∀ rest, whole = 0 :: rest → rest = []) {rest : List Char} (stop : NoDigit rest) :
    integerPart (digitText whole ++ rest) = some (digitText whole, rest) := by
  cases whole with
  | nil => exact absurd rfl h
  | cons digit whole =>
    by_cases hzero : digit = 0
    · obtain rfl := hzero
      obtain rfl := unpadded whole rfl
      rfl
    · have hchar : digit.val.digitChar ≠ '0' :=
        fun h => hzero (Fin.ext (Nat.digitChar_eq_zero.mp h))
      rw [integerPart.eq_def]
      split
      · next hcons => exact absurd (List.cons.inj hcons).1 hchar
      · rw [digits_digitText _ stop, if_neg (digitText_ne_nil h)]

theorem fraction_text (f : Fraction) {rest : List Char} (stop : NoDigit rest) :
    fraction (f.text ++ rest) = some (true, rest) := by
  rw [Fraction.text, List.cons_append, fraction, skipDigits_digitText f.digits_ne_nil stop]
  rfl

theorem fraction_rest {rest : List Char} (noPoint : ∀ more, rest ≠ '.' :: more) :
    fraction rest = some (false, rest) := by
  rw [fraction.eq_def]
  split
  · next more => exact absurd rfl (noPoint more)
  · rfl

theorem exponent_text (e : Exponent) {rest : List Char} (stop : NoDigit rest) :
    exponent (e.text ++ rest) = some (true, rest) := by
  have hskip : (skipDigits (skipSign (e.sign ++ (digitText e.digits ++ rest)))) = some rest := by
    have hsign := e.sign_mem
    simp only [List.mem_cons, List.not_mem_nil, or_false] at hsign
    rcases hsign with hsign | hsign | hsign
    · rw [hsign, List.nil_append, skipSign_digitText e.digits_ne_nil,
        skipDigits_digitText e.digits_ne_nil stop]
    iterate 2
      · rw [hsign]
        exact skipDigits_digitText e.digits_ne_nil stop
  have hmarker := e.marker_mem
  simp only [List.mem_cons, List.not_mem_nil, or_false] at hmarker
  rw [Exponent.text, List.cons_append, List.cons_append, List.append_assoc]
  rcases hmarker with hmarker | hmarker
  iterate 2
    · rw [hmarker, exponent, hskip]
      rfl

theorem exponent_rest {rest : List Char}
    (noMarker : ∀ c more, rest = c :: more → c ≠ 'e' ∧ c ≠ 'E') :
    exponent rest = some (false, rest) := by
  rw [exponent.eq_def]
  split
  · next more => exact absurd rfl (noMarker 'e' more rfl).1
  · next more => exact absurd rfl (noMarker 'E' more rfl).2
  · rfl

/-- Neither digits nor a point stand where an exponent may. -/
theorem exponent_stops (e? : Option Exponent) {rest : List Char} (ends : Ends rest) :
    NoDigit (e?.elim [] Exponent.text ++ rest) ∧
      ∀ more, e?.elim [] Exponent.text ++ rest ≠ '.' :: more := by
  cases e? with
  | none => exact ⟨ends.noDigit, ends.noPoint⟩
  | some e =>
    have hmarker := e.marker_mem
    simp only [List.mem_cons, List.not_mem_nil, or_false] at hmarker
    have hends : e.marker.isDigit = false ∧ e.marker ≠ '.' := by
      rcases hmarker with h | h <;> rw [h] <;> decide
    constructor
    · rintro _ ⟨rfl⟩
      exact hends.1
    · exact fun more h => hends.2 (List.cons.inj h).1

theorem exponent_elim (e? : Option Exponent) {rest : List Char} (ends : Ends rest) :
    exponent (e?.elim [] Exponent.text ++ rest) = some (e?.isSome, rest) := by
  cases e? with
  | none => exact exponent_rest ends.noMarker
  | some e => exact exponent_text e ends.noDigit

theorem fraction_elim (f? : Option Fraction) {rest : List Char} (stop : NoDigit rest)
    (noPoint : ∀ more, rest ≠ '.' :: more) :
    fraction (f?.elim [] Fraction.text ++ rest) = some (f?.isSome, rest) := by
  cases f? with
  | none => exact fraction_rest noPoint
  | some f => exact fraction_text f stop

theorem noDigit_fraction (f? : Option Fraction) {rest : List Char} (stop : NoDigit rest) :
    NoDigit (f?.elim [] Fraction.text ++ rest) := by
  cases f? with
  | none => exact stop
  | some f =>
    rintro _ ⟨rfl⟩
    decide

theorem unsigned_text (n : Number) {rest : List Char} (ends : Ends rest) :
    unsigned (digitText n.whole ++ (n.tailText ++ rest)) =
      some (if n.fraction?.isSome || n.exponent?.isSome then none else some (digitValue n.whole),
        rest) := by
  obtain ⟨hdigit, hpoint⟩ := exponent_stops n.exponent? ends
  have hwhole := integerPart_digitText n.whole_ne_nil n.unpadded
    (noDigit_fraction n.fraction? hdigit)
  rw [Number.tailText, List.append_assoc, unsigned, hwhole]
  dsimp only
  rw [fraction_elim n.fraction? hdigit hpoint]
  dsimp only
  rw [exponent_elim n.exponent? ends]
  dsimp only
  rw [decimalValue?_digitText n.whole_ne_nil]
  cases n.fraction?.isSome <;> cases n.exponent?.isSome <;> rfl

theorem token?_digit (digit : Fin 10) (rest : List Char) :
    token? digit.val.digitChar rest = (unsigned (digit.val.digitChar :: rest)).map
      fun (value, rest) => (.number value, rest) := by
  obtain ⟨value, h⟩ := digit
  match value with
  | 0 | 1 | 2 | 3 | 4 | 5 | 6 | 7 | 8 | 9 => rfl
  | value + 10 => omega

theorem isBlank_digit (digit : Fin 10) : isBlank digit.val.digitChar = false := by
  revert digit
  decide

/-- A number is read as one token, with its value if it is written as a natural number. -/
theorem token?_number (n : Number) {rest : List Char} (ends : Ends rest) :
    ∃ c more, n.text ++ rest = c :: more ∧ isBlank c = false ∧
      token? c more = some (.number n.natural?, rest) := by
  have hunsigned := unsigned_text n ends
  rw [Number.text, List.append_assoc, List.append_assoc]
  cases hsign : n.negative with
  | true =>
    refine ⟨'-', digitText n.whole ++ (n.tailText ++ rest), rfl, rfl, ?_⟩
    have hnone : n.natural? = none := by rw [Number.natural?, hsign]; rfl
    rw [token?, hunsigned, hnone]
    rfl
  | false =>
    have hvalue : n.natural? =
        if n.fraction?.isSome || n.exponent?.isSome then none else some (digitValue n.whole) := by
      rw [Number.natural?, hsign]
      rfl
    obtain ⟨digit, whole, hwhole⟩ := List.exists_cons_of_ne_nil n.whole_ne_nil
    have htext : digitText n.whole = digit.val.digitChar :: digitText whole := by
      rw [hwhole]
      rfl
    rw [htext, List.cons_append] at hunsigned ⊢
    refine ⟨digit.val.digitChar, digitText whole ++ (n.tailText ++ rest), rfl,
      isBlank_digit digit, ?_⟩
    rw [token?_digit, hunsigned, hvalue]
    rfl

/-! ## Strings -/

theorem hexDigit?_char (digit : HexDigit) :
    Numeral.hexDigit? digit.char = some digit.value.val := by
  obtain ⟨value, upper⟩ := digit
  revert value upper
  decide

theorem unit?_char (u : CodeUnit) :
    unit? u.first.char u.second.char u.third.char u.fourth.char = some u.value := by
  simp only [unit?, Numeral.hexValue?, Numeral.extend, hexDigit?_char, CodeUnit.value, Nat.zero_mul,
    Nat.zero_add]

/-- The step of a string that is read from what is written. -/
def Written.piece : Written → Piece
  | .plain c _ => .char c
  | .escape _ c _ => .char c
  | .unit u => .unit u.value

theorem escaped?_of_known {letter c : Char} (known : (letter, c) ∈ escapes) :
    letter ≠ 'u' ∧ escaped? letter = some c := by
  have hall : ∀ known ∈ escapes, known.1 ≠ 'u' ∧ escaped? known.1 = some known.2 := by decide
  exact hall _ known

theorem pieces_escape {letter : Char} (h : letter ≠ 'u') (found : List Piece) (rest : List Char) :
    pieces found ('\\' :: letter :: rest) =
      (escaped? letter).bind fun c => pieces (.char c :: found) rest := by
  rw [pieces]
  · cases escaped? letter <;> rfl
  · rintro _ _ _ _ _ rfl
    exact absurd rfl h

theorem pieces_unit (u : CodeUnit) (found : List Piece) (rest : List Char) :
    pieces found (u.text ++ rest) = pieces (.unit u.value :: found) rest := by
  simp only [CodeUnit.text, List.cons_append, List.nil_append, pieces, unit?_char]

theorem pieces_plain {c : Char} (allowed : Plain c) (found : List Piece)
    (rest : List Char) : pieces found (c :: rest) = pieces (.char c :: found) rest := by
  obtain ⟨hspace, hquote, hbackslash⟩ := allowed
  have hplain : ¬(c = '\\' ∨ c < ' ') := fun h => h.elim hbackslash (Char.not_lt.mpr hspace)
  rw [pieces, if_neg hplain]
  · exact hquote
  · exact fun _ _ _ _ _ h => absurd h hbackslash
  · exact fun _ _ h => absurd h hbackslash

/-- A string is read up to its quote, and reading goes on behind it. -/
theorem pieces_text (written : List Written) (found : List Piece) (rest : List Char) :
    pieces found (written.flatMap Written.text ++ '"' :: rest) =
      some (found.reverse ++ written.map Written.piece, rest) := by
  induction written generalizing found with
  | nil => rw [List.map_nil, List.append_nil]; rfl
  | cons step written ih =>
    have hrest := ih (step.piece :: found)
    rw [List.reverse_cons, List.append_assoc] at hrest
    rw [List.flatMap_cons, List.append_assoc, List.map_cons]
    refine Eq.trans ?_ hrest
    cases step with
    | plain c allowed => exact pieces_plain allowed found _
    | escape letter c known =>
      obtain ⟨hletter, hescaped⟩ := escaped?_of_known known
      rw [Written.text, List.cons_append, List.cons_append, pieces_escape hletter, hescaped]
      rfl
    | unit u => exact pieces_unit u found _

theorem join_unit {u : Nat} (leads : isLead u = false) (trails : isTrail u = false)
    (found : List Char) (rest : List Piece) :
    join found (.unit u :: rest) = join (Char.ofNat u :: found) rest := by
  rw [join.eq_def]
  split
  · next h => cases h
  · next h => cases h
  · next h =>
    obtain ⟨⟨rfl⟩, rfl⟩ := List.cons.inj h
    simp only [leads, trails, Bool.false_eq_true, if_false]
  · next h =>
    obtain ⟨⟨rfl⟩, rfl⟩ := List.cons.inj h
    simp only [leads, trails, Bool.or_false, Bool.false_eq_true, if_false]

theorem isLead_eq (u : CodeUnit) : isLead u.value = true ↔ u.Leads := by
  simp only [isLead, Bool.and_eq_true, decide_eq_true_eq, CodeUnit.Leads]

theorem isTrail_eq (u : CodeUnit) : isTrail u.value = true ↔ u.Trails := by
  simp only [isTrail, Bool.and_eq_true, decide_eq_true_eq, CodeUnit.Trails]

/-- What is written is joined to the text that it spells. -/
theorem join_spells {written : List Written} {text : List Char} (spells : Spells written text)
    (found : List Char) :
    join found (written.map Written.piece) = some (found.reverse ++ text) := by
  induction spells generalizing found with
  | nil => rw [List.append_nil]; rfl
  | @plain c _ _ _ rest ih | @escape _ c _ _ _ rest ih =>
    have hrest := ih (c :: found)
    rw [List.reverse_cons, List.append_assoc] at hrest
    exact hrest
  | @unit u _ _ leads trails rest ih =>
    have hrest := ih (Char.ofNat u.value :: found)
    rw [List.reverse_cons, List.append_assoc] at hrest
    have hlead := Bool.eq_false_iff.mpr fun h => leads ((isLead_eq u).mp h)
    have htrail := Bool.eq_false_iff.mpr fun h => trails ((isTrail_eq u).mp h)
    rw [List.map_cons, Written.piece, join_unit hlead htrail]
    exact hrest
  | @pair u v _ _ leads trails rest ih =>
    have hrest :=
      ih (Char.ofNat (0x10000 + (u.value - 0xD800) * 0x400 + (v.value - 0xDC00)) :: found)
    rw [List.reverse_cons, List.append_assoc] at hrest
    rw [List.map_cons, List.map_cons, Written.piece, Written.piece, join,
      if_pos ((isLead_eq u).mpr leads), if_pos ((isTrail_eq v).mpr trails)]
    exact hrest

/-- The text that is read from what is written; none if a surrogate stands alone. -/
def spelled? (written : List Written) : Option String :=
  (join [] (written.map Written.piece)).map String.ofList

theorem spelled?_eq {written : List Written} {text : String}
    (spells : Spells written text.toList) : spelled? written = some text := by
  rw [spelled?, join_spells spells, Option.map_some, List.reverse_nil, List.nil_append,
    String.ofList_toList]

theorem token?_string (written : List Written) (rest : List Char) :
    token? '"' (written.flatMap Written.text ++ '"' :: rest) =
      some (.string (spelled? written), rest) := by
  rw [token?, pieces_text]
  rfl

/-! ## Values -/

mutual

/-- The tokens of a value. -/
def Value.tokens : Value → List Token
  | .null => [.null]
  | .boolean value => [.boolean value]
  | .number n => [.number n.natural?]
  | .string written => [.string (spelled? written)]
  | .emptyArray _ => [.openBracket, .closeBracket]
  | .array elements => .openBracket :: elements.tokens
  | .emptyObject _ => [.openBrace, .closeBrace]
  | .object members => .openBrace :: members.tokens

/-- The tokens of elements up to the closing bracket. -/
def Elements.tokens : Elements → List Token
  | .last _ value _ => value.tokens ++ [.closeBracket]
  | .more _ value _ rest => value.tokens ++ .comma :: rest.tokens

/-- The tokens of members up to the closing brace. -/
def Members.tokens : Members → List Token
  | .last name _ value _ => .string (spelled? name.key) :: .colon :: (value.tokens ++ [.closeBrace])
  | .more name _ value _ rest =>
    .string (spelled? name.key) :: .colon :: (value.tokens ++ .comma :: rest.tokens)

end

theorem tokensFrom_blank (found : List Token) {c : Char} (h : isBlank c = true) (rest : List Char) :
    tokensFrom found (c :: rest) = tokensFrom found rest := by
  rw [tokensFrom, if_pos h]

theorem tokensFrom_token (found : List Token) {c : Char} {t : Token} {rest left : List Char}
    (h : isBlank c = false) (htoken : token? c rest = some (t, left)) :
    tokensFrom found (c :: rest) = tokensFrom (t :: found) left := by
  rw [tokensFrom, if_neg (by rw [h]; decide)]
  split
  · next hnone =>
    rw [htoken] at hnone
    cases hnone
  · next t' left' hsome =>
    rw [htoken] at hsome
    obtain ⟨rfl, rfl⟩ := Prod.mk.inj (Option.some.inj hsome)
    rfl

theorem isBlank_of_mem (space : Space) {c : Char} (h : c ∈ space.chars) : isBlank c = true := by
  have hblank := space.blank c h
  simp only [List.mem_cons, List.not_mem_nil, or_false] at hblank
  rcases hblank with rfl | rfl | rfl | rfl <;> rfl

/-- Blanks are skipped. -/
theorem tokensFrom_space (found : List Token) (space : Space) (rest : List Char) :
    tokensFrom found (space.chars ++ rest) = tokensFrom found rest := by
  have hskip : ∀ chars : List Char, (∀ c ∈ chars, isBlank c = true) →
      tokensFrom found (chars ++ rest) = tokensFrom found rest := by
    intro chars hblank
    induction chars with
    | nil => rfl
    | cons c chars ih =>
      rw [List.cons_append, tokensFrom_blank found (hblank c List.mem_cons_self)]
      exact ih fun c h => hblank c (List.mem_cons_of_mem _ h)
  exact hskip space.chars fun c => isBlank_of_mem space

theorem ends_space (space : Space) {rest : List Char} (ends : Ends rest) :
    Ends (space.chars ++ rest) := by
  cases hchars : space.chars with
  | nil => exact ends
  | cons c chars =>
    have hblank := space.blank c (hchars ▸ List.mem_cons_self)
    have hall : ([' ', '\t', '\n', '\r'].all fun c =>
        decide (c.isDigit = false ∧ c ≠ '.' ∧ c ≠ 'e' ∧ c ≠ 'E')) = true := by decide
    exact ends_cons (of_decide_eq_true (List.all_eq_true.mp hall c hblank))

theorem tokensFrom_string (found : List Token) (written : List Written) (rest : List Char) :
    tokensFrom found (stringText written ++ rest) =
      tokensFrom (.string (spelled? written) :: found) rest := by
  rw [stringText, List.cons_append, List.append_assoc]
  exact tokensFrom_token found rfl (token?_string written rest)

theorem tokensFrom_name (found : List Token) (name : Name) (rest : List Char) :
    tokensFrom found (name.text ++ rest) =
      tokensFrom (.colon :: .string (spelled? name.key) :: found) rest := by
  rw [Name.text, List.append_assoc, List.append_assoc, List.append_assoc, tokensFrom_space,
    tokensFrom_string, tokensFrom_space]
  exact tokensFrom_token _ rfl rfl

/-- A value with blanks around it is read up to the token behind it, which ends a number. -/
theorem tokensFrom_item {value : Value}
    (read : ∀ (found : List Token) {rest : List Char}, Ends rest →
      tokensFrom found (value.text ++ rest) = tokensFrom (value.tokens.reverse ++ found) rest)
    (before after : Space) {c : Char} {t : Token} (blank : isBlank c = false)
    (ends : c.isDigit = false ∧ c ≠ '.' ∧ c ≠ 'e' ∧ c ≠ 'E') (found : List Token)
    {rest : List Char} (token : token? c rest = some (t, rest)) :
    tokensFrom found (before.chars ++ (value.text ++ (after.chars ++ c :: rest))) =
      tokensFrom (t :: (value.tokens.reverse ++ found)) rest := by
  rw [tokensFrom_space, read found (ends_space after (ends_cons ends)), tokensFrom_space,
    tokensFrom_token _ blank token]

mutual

/-- The text of a value is read as its tokens, and reading goes on behind it. -/
theorem tokensFrom_value (value : Value) (found : List Token) {rest : List Char}
    (ends : Ends rest) :
    tokensFrom found (value.text ++ rest) = tokensFrom (value.tokens.reverse ++ found) rest := by
  cases value with
  | null => exact tokensFrom_token found rfl rfl
  | boolean value => cases value <;> exact tokensFrom_token found rfl rfl
  | number n =>
    obtain ⟨c, more, htext, hblank, htoken⟩ := token?_number n ends
    rw [Value.text, htext]
    exact tokensFrom_token found hblank htoken
  | string written => exact tokensFrom_string found written rest
  | emptyArray inner =>
    rw [Value.text, List.cons_append, List.append_assoc, tokensFrom_token found rfl rfl,
      tokensFrom_space]
    exact tokensFrom_token _ rfl rfl
  | array elements =>
    rw [Value.text, List.cons_append, tokensFrom_token found rfl rfl, tokensFrom_elements,
      Value.tokens, List.reverse_cons, List.append_assoc]
    rfl
  | emptyObject inner =>
    rw [Value.text, List.cons_append, List.append_assoc, tokensFrom_token found rfl rfl,
      tokensFrom_space]
    exact tokensFrom_token _ rfl rfl
  | object members =>
    rw [Value.text, List.cons_append, tokensFrom_token found rfl rfl, tokensFrom_members,
      Value.tokens, List.reverse_cons, List.append_assoc]
    rfl

theorem tokensFrom_elements (elements : Elements) (found : List Token) (rest : List Char) :
    tokensFrom found (elements.text ++ rest) =
      tokensFrom (elements.tokens.reverse ++ found) rest := by
  cases elements with
  | last before value after =>
    simp only [Elements.text, Elements.tokens, List.append_assoc, List.reverse_append]
    exact tokensFrom_item (tokensFrom_value value) before after rfl (by decide) found rfl
  | more before value after others =>
    simp only [Elements.text, Elements.tokens, List.append_assoc, List.cons_append,
      List.reverse_append, List.reverse_cons]
    rw [tokensFrom_item (tokensFrom_value value) before after rfl (by decide) found rfl]
    exact tokensFrom_elements others _ rest

theorem tokensFrom_members (members : Members) (found : List Token) (rest : List Char) :
    tokensFrom found (members.text ++ rest) =
      tokensFrom (members.tokens.reverse ++ found) rest := by
  cases members with
  | last name before value after =>
    simp only [Members.text, Members.tokens, List.append_assoc, List.reverse_append,
      List.reverse_cons]
    rw [tokensFrom_name]
    exact tokensFrom_item (tokensFrom_value value) before after rfl (by decide) _ rfl
  | more name before value after others =>
    simp only [Members.text, Members.tokens, List.append_assoc, List.cons_append,
      List.reverse_append, List.reverse_cons]
    rw [tokensFrom_name,
      tokensFrom_item (tokensFrom_value value) before after rfl (by decide) _ rfl]
    exact tokensFrom_members others _ rest

end

/-- The tokens of a document are those of its value. -/
theorem tokens?_document (document : Document) :
    tokens? document.text = some document.value.tokens := by
  have ends : Ends document.after.chars := by
    have h := ends_space document.after ends_nil
    rwa [List.append_nil] at h
  have hend := tokensFrom_space document.value.tokens.reverse document.after []
  rw [List.append_nil] at hend
  rw [tokens?, Document.text, String.toList_ofList, tokensFrom_space, tokensFrom_value _ _ ends,
    List.append_nil, hend, tokensFrom, List.reverse_reverse]

end Firmware.Json
