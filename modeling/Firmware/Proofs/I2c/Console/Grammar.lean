/-
  Firmware: the grammar of command lines. A line says a command if its words are the command's
  name, in letters of either case, and one numeral for each of its values in their order.
  `ofLine_exact` says that the reader accepts these lines and no others, and that nothing else of
  a line matters.
-/
import Firmware.I2c.Console.Command
import Firmware.Proofs.Text.Numerals
import Firmware.Proofs.Text.Words
import Mathlib.Data.List.Forall2

namespace Firmware.I2c.Console

/-! ## Letters of either case -/

/-- Characters that are the same, or the same ASCII letter in either case. -/
def SameLetter (c d : Char) : Prop := c = d ∨ c = d.toUpper ∨ d = c.toUpper

/-- Texts that are the same up to the case of ASCII letters. -/
def SameLetters (text text' : List Char) : Prop := List.Forall₂ SameLetter text text'

theorem toNat_toLower (c : Char) :
    c.toLower.toNat = if 65 ≤ c.toNat ∧ c.toNat ≤ 90 then c.toNat + 32 else c.toNat := by
  unfold Char.toLower
  split
  · next h =>
    have hfrom : 65 ≤ c.val.toNat := h.1
    have hto : c.val.toNat ≤ 90 := h.2
    rw [if_pos ⟨hfrom, hto⟩]
    show (c.val + 32).toNat = c.val.toNat + 32
    rw [UInt32.toNat_add]
    show (c.val.toNat + 32) % 2 ^ 32 = c.val.toNat + 32
    omega
  · next h => exact (if_neg fun hc => h hc).symm

theorem toNat_toUpper (c : Char) :
    c.toUpper.toNat = if 97 ≤ c.toNat ∧ c.toNat ≤ 122 then c.toNat - 32 else c.toNat := by
  unfold Char.toUpper
  split
  · next h =>
    have hfrom : 97 ≤ c.val.toNat := h.1
    have hto : c.val.toNat ≤ 122 := h.2
    rw [if_pos ⟨hfrom, hto⟩]
    -- The difference of the letters' codes wraps around.
    show (c.val + 4294967264).toNat = c.val.toNat - 32
    rw [UInt32.toNat_add]
    show (c.val.toNat + 4294967264) % 2 ^ 32 = c.val.toNat - 32
    omega
  · next h => exact (if_neg fun hc => h hc).symm

theorem toLower_eq_iff {c d : Char} : c.toLower = d.toLower ↔ SameLetter c d := by
  simp only [SameLetter, ← Char.toNat_inj, toNat_toLower, toNat_toUpper]
  split <;> split <;> split <;> split <;> omega

theorem sameLetters_iff {text text' : List Char} :
    SameLetters text text' ↔ text.map Char.toLower = text'.map Char.toLower := by
  rw [← List.forall₂_eq_eq_eq, List.forall₂_map_left_iff, List.forall₂_map_right_iff]
  simp only [toLower_eq_iff]
  rfl

/-! ## Numerals -/

/-- How a number can be written: in decimal digits, or behind `0x` in hexadecimal digits; a plus
sign may stand in front of the digits, and zeros do not count there. -/
inductive Spells : List Char → Nat → Prop where
  | decimal {sign digits : List Char} {n : Nat} (hsign : sign ∈ [[], ['+']])
    (hdigits : Numeral.Denotes 10 digits n) : Spells (sign ++ digits) n
  | hex {marker : Char} {sign digits : List Char} {n : Nat} (hmarker : marker ∈ ['x', 'X'])
    (hsign : sign ∈ [[], ['+']]) (hdigits : Numeral.Denotes 16 digits n) :
    Spells ('0' :: marker :: (sign ++ digits)) n

section

open Numeral

variable {base n : Nat} {word digits rest : List Char}

theorem dropPlus_digits (hbase : base ≤ 16) (h : Denotes base digits n) :
    dropPlus digits = digits := by
  unfold dropPlus
  split
  · next rest =>
    obtain ⟨d, hd⟩ := h.isDigit (c := '+') List.mem_cons_self
    exact absurd rfl (hd.ne_plus hbase)
  · rfl

/-- One plus sign in front of digits is dropped, and nothing else is. -/
theorem denotes_dropPlus (hbase : base ≤ 16) : Denotes base (dropPlus word) n ↔
    ∃ sign ∈ [[], ['+']], ∃ digits, word = sign ++ digits ∧ Denotes base digits n := by
  constructor
  · intro h
    unfold dropPlus at h
    split at h
    · next rest => exact ⟨['+'], by decide, rest, rfl, h⟩
    · exact ⟨[], by decide, word, rfl, h⟩
  · rintro ⟨sign, hsign, digits, rfl, h⟩
    rcases List.mem_cons.mp hsign with rfl | hsign
    · rwa [List.nil_append, dropPlus_digits hbase h]
    · rw [List.mem_singleton.mp hsign]
      exact h

theorem not_isDigit_marker {marker : Char} (hmarker : marker ∈ ['x', 'X']) (d : Nat) :
    ¬IsDigit 10 marker d := by
  have hlower : ∀ d < 10, 'x' ≠ d.digitChar ∧ 'x' ≠ d.digitChar.toUpper := by decide
  have hupper : ∀ d < 10, 'X' ≠ d.digitChar ∧ 'X' ≠ d.digitChar.toUpper := by decide
  have hdigits : ∀ d < 10, marker ≠ d.digitChar ∧ marker ≠ d.digitChar.toUpper := by
    rcases List.mem_cons.mp hmarker with rfl | hmarker
    · exact hlower
    · rw [List.mem_singleton.mp hmarker]
      exact hupper
  rintro ⟨hd, h | h⟩
  · exact (hdigits d hd).1 h
  · exact (hdigits d hd).2 h

theorem spells_hex {marker : Char} (hmarker : marker ∈ ['x', 'X']) :
    Spells ('0' :: marker :: rest) n ↔ Denotes 16 (dropPlus rest) n := by
  rw [denotes_dropPlus (Nat.le_refl 16)]
  constructor
  · intro h
    generalize hword : '0' :: marker :: rest = word at h
    cases h with
    | hex _ hsign hdigits =>
      obtain ⟨-, hword⟩ := List.cons.inj hword
      exact ⟨_, hsign, _, (List.cons.inj hword).2, hdigits⟩
    | @decimal sign digits _ hsign hdigits =>
      -- Without a sign the marker would be a digit, and a sign is no zero.
      rcases List.mem_cons.mp hsign with rfl | hsign
      · rw [List.nil_append] at hword
        have hmem : marker ∈ digits := hword ▸ List.mem_cons_of_mem _ List.mem_cons_self
        obtain ⟨d, hd⟩ := hdigits.isDigit hmem
        exact absurd hd (not_isDigit_marker hmarker d)
      · rw [List.mem_singleton.mp hsign] at hword
        exact absurd (List.cons.inj hword).1 (by decide)
  · rintro ⟨sign, hsign, digits, rfl, h⟩
    exact .hex hmarker hsign h

theorem spells_decimal (hword : ∀ marker ∈ ['x', 'X'], ∀ rest, word ≠ '0' :: marker :: rest) :
    Spells word n ↔ Denotes 10 (dropPlus word) n := by
  rw [denotes_dropPlus (by decide)]
  constructor
  · intro h
    cases h with
    | decimal hsign hdigits => exact ⟨_, hsign, _, rfl, hdigits⟩
    | hex hmarker _ _ => exact absurd rfl (hword _ hmarker _)
  · rintro ⟨sign, hsign, digits, rfl, h⟩
    exact .decimal hsign h

theorem numeral?_eq_some_iff : numeral? word = some n ↔ Spells word n := by
  unfold numeral?
  split
  · rw [hexValue?_eq_some_iff, spells_hex (by decide)]
  · rw [hexValue?_eq_some_iff, spells_hex (by decide)]
  · next hx hX =>
    rw [decimalValue?_eq_some_iff, spells_decimal]
    intro marker hmarker rest
    rcases List.mem_cons.mp hmarker with rfl | hmarker
    · exact hx rest
    · rw [List.mem_singleton.mp hmarker]
      exact hX rest

end

/-- A word spells one number at most. -/
theorem Spells.unique {word : List Char} {n n' : Nat} (h : Spells word n) (h' : Spells word n') :
    n = n' := by
  rw [← numeral?_eq_some_iff] at h h'
  exact Option.some.inj (h.symm.trans h')

/-! ## Arguments -/

/-- Values that lie below the bounds of parameters, one for each. -/
def Fits (values : List Nat) (parameters : Parameters) : Prop :=
  List.Forall₂ (fun value parameter => value < parameter.2) values parameters

theorem number_eq_ok_iff {bound n : Nat} {word : List Char} :
    number bound (String.ofList word) = .ok n ↔ Spells word n ∧ n < bound := by
  rw [number, String.toList_ofList, ← numeral?_eq_some_iff]
  cases numeral? word with
  | none => simp
  | some m =>
    dsimp only
    split
    · next hfits =>
      rw [Except.ok.injEq, Option.some_inj]
      constructor
      · rintro rfl
        exact ⟨rfl, hfits⟩
      · exact And.left
    · next hlarge =>
      rw [Option.some_inj]
      constructor
      · exact nofun
      · rintro ⟨rfl, hfits⟩
        exact absurd hfits hlarge

/-- Arguments are numerals whose values fit, as many as there are parameters. -/
theorem arguments_eq_ok_iff {parameters : Parameters} {numerals : List (List Char)}
    {values : List Nat} : arguments parameters (numerals.map String.ofList) = .ok values ↔
      List.Forall₂ Spells numerals values ∧ Fits values parameters := by
  induction parameters generalizing numerals values with
  | nil =>
    cases numerals with
    | nil =>
      rw [List.map_nil, arguments, Except.ok.injEq]
      constructor
      · rintro rfl
        exact ⟨.nil, .nil⟩
      · rintro ⟨hspells, -⟩
        cases hspells
        rfl
    | cons word rest =>
      constructor
      · exact nofun
      · rintro ⟨hspells, hfits⟩
        cases hfits
        cases hspells
  | cons parameter parameters ih =>
    cases numerals with
    | nil =>
      constructor
      · exact nofun
      · rintro ⟨hspells, hfits⟩
        cases hspells
        cases hfits
    | cons word rest =>
      rw [List.map_cons, arguments]
      constructor
      · intro h
        split at h
        · cases h
        · next n hnumber =>
          obtain ⟨hword, hbound⟩ := number_eq_ok_iff.mp hnumber
          cases hrest : arguments parameters (rest.map String.ofList) with
          | error e =>
            rw [hrest] at h
            cases h
          | ok more =>
            rw [hrest] at h
            obtain ⟨hspells, hfits⟩ := ih.mp hrest
            cases h
            exact ⟨.cons hword hspells, .cons hbound hfits⟩
      · rintro ⟨hspells, hfits⟩
        cases hspells with
        | cons hword hspells =>
          cases hfits with
          | cons hbound hfits =>
            rw [number_eq_ok_iff.mpr ⟨hword, hbound⟩]
            dsimp only
            rw [ih.mpr ⟨hspells, hfits⟩]
            rfl

/-! ## Commands -/

/-- The name of a command. -/
def Command.name : Command → Name
  | .registers => .regs
  | .scan => .scan
  | .read _ _ => .read
  | .write _ _ _ => .write
  | .speed _ => .speed
  | .statistics => .stats

/-- The values of a command, in their order. -/
def Command.values : Command → List Nat
  | .registers | .scan | .statistics => []
  | .read address register => [address.toNat, register.toNat]
  | .write address register value => [address.toNat, register.toNat, value.toNat]
  | .speed hz => [hz.toNat]

theorem Command.fits_values (command : Command) :
    Fits command.values command.name.parameters := by
  cases command with
  | registers | scan | statistics => exact .nil
  | read address register => exact .cons address.toNat_lt (.cons register.toNat_lt .nil)
  | write address register value =>
    exact .cons address.toNat_lt (.cons register.toNat_lt (.cons value.toNat_lt .nil))
  | speed hz => exact .cons hz.toNat_lt .nil

theorem Command.command_values (command : Command) :
    command.name.command command.values = command := by
  cases command <;> simp [name, values, Name.command, Name.command.byte]

/-- A command made of values that fit has these values. -/
theorem Name.values_command {name : Name} {values : List Nat} (h : Fits values name.parameters) :
    (name.command values).name = name ∧ (name.command values).values = values := by
  have hbyte {n : Nat} (hn : n < UInt8.size) : (UInt8.ofNat n).toNat = n := Nat.mod_eq_of_lt hn
  have hword {n : Nat} (hn : n < UInt32.size) : (UInt32.ofNat n).toNat = n := Nat.mod_eq_of_lt hn
  cases name with
  | regs | scan | stats =>
    cases h
    exact ⟨rfl, rfl⟩
  | read =>
    obtain ⟨a, _, ha, hrest, rfl⟩ := List.forall₂_cons_right_iff.mp h
    obtain ⟨r, _, hr, hnone, rfl⟩ := List.forall₂_cons_right_iff.mp hrest
    cases hnone
    refine ⟨rfl, ?_⟩
    show [(UInt8.ofNat a).toNat, (UInt8.ofNat r).toNat] = [a, r]
    rw [hbyte ha, hbyte hr]
  | write =>
    obtain ⟨a, _, ha, hrest, rfl⟩ := List.forall₂_cons_right_iff.mp h
    obtain ⟨r, _, hr, hlast, rfl⟩ := List.forall₂_cons_right_iff.mp hrest
    obtain ⟨v, _, hv, hnone, rfl⟩ := List.forall₂_cons_right_iff.mp hlast
    cases hnone
    refine ⟨rfl, ?_⟩
    show [(UInt8.ofNat a).toNat, (UInt8.ofNat r).toNat, (UInt8.ofNat v).toNat] = [a, r, v]
    rw [hbyte ha, hbyte hr, hbyte hv]
  | speed =>
    obtain ⟨hz, _, hhz, hnone, rfl⟩ := List.forall₂_cons_right_iff.mp h
    cases hnone
    refine ⟨rfl, ?_⟩
    show [(UInt32.ofNat hz).toNat] = [hz]
    rw [hword hhz]

theorem Name.ofText?_eq_some_iff {text : String} {name : Name} :
    ofText? text = some name ↔ text = name.text := by
  constructor
  · intro h
    have hfound := List.find?_some h
    exact (of_decide_eq_true hfound).symm
  · rintro rfl
    cases name <;> rfl

theorem lowerCase_eq_iff {word : List Char} {name : Name} :
    lowerCase (String.ofList word) = name.text ↔ SameLetters word name.text.toList := by
  have hlower : name.text.toList.map Char.toLower = name.text.toList := by
    cases name <;> decide
  rw [lowerCase, String.toList_ofList, sameLetters_iff, hlower, ← String.toList_inj,
    String.toList_ofList]

/-! ## Lines -/

/-- Words say a command: its name, in letters of either case, and a numeral for each of its
values. -/
inductive WordsSay : List (List Char) → Command → Prop where
  | intro {name : List Char} {numerals : List (List Char)} {command : Command}
    (hname : SameLetters name command.name.text.toList)
    (hnumerals : List.Forall₂ Spells numerals command.values) :
    WordsSay (name :: numerals) command

/-- A line says a command if its words do. -/
def Says (line : String) (command : Command) : Prop :=
  ∃ words, Shows line.toList words ∧ WordsSay words command

theorem ofWords_eq_ok_iff {words : List (List Char)} {command : Command} :
    Command.ofWords (words.map String.ofList) = .ok command ↔ WordsSay words command := by
  cases words with
  | nil => exact ⟨nofun, nofun⟩
  | cons first rest =>
    rw [List.map_cons, Command.ofWords]
    constructor
    · intro h
      split at h
      · cases h
      · next name hname =>
        cases hvalues : arguments name.parameters (rest.map String.ofList) with
        | error e =>
          rw [hvalues] at h
          cases h
        | ok values =>
          rw [hvalues] at h
          cases h
          obtain ⟨hspells, hfits⟩ := arguments_eq_ok_iff.mp hvalues
          obtain ⟨hsame, hvalues⟩ := Name.values_command hfits
          refine .intro ?_ ?_
          · rw [hsame]
            exact lowerCase_eq_iff.mp (Name.ofText?_eq_some_iff.mp hname)
          · rwa [hvalues]
    · rintro ⟨hname, hnumerals⟩
      have harguments := arguments_eq_ok_iff.mpr ⟨hnumerals, command.fits_values⟩
      rw [Name.ofText?_eq_some_iff.mpr (lowerCase_eq_iff.mpr hname)]
      dsimp only
      rw [harguments]
      exact congrArg Except.ok command.command_values

theorem ofLine_eq_ok_iff {line : String} {command : Command} :
    Command.ofLine line = .ok command ↔ Says line command := by
  constructor
  · intro h
    have hshows := shows_wordsFrom line.toList (List.forall_mem_nil _)
    exact ⟨_, hshows, ofWords_eq_ok_iff.mp h⟩
  · rintro ⟨found, hshows, hsays⟩
    rw [Command.ofLine, (shows_iff line found).mp hshows]
    exact ofWords_eq_ok_iff.mpr hsays

/-! ## Spellings that do not matter -/

/-- Words that spell the same number. -/
def SameNumber (word word' : List Char) : Prop := ∃ n, Spells word n ∧ Spells word' n

theorem spells_of_same {numerals numerals' : List (List Char)} {values : List Nat}
    (hsame : List.Forall₂ SameNumber numerals numerals')
    (hspells : List.Forall₂ Spells numerals values) : List.Forall₂ Spells numerals' values := by
  induction hsame generalizing values with
  | nil => exact hspells
  | cons hword _ ih =>
    cases hspells with
    | cons hfirst hspells =>
      obtain ⟨n, hn, hn'⟩ := hword
      rw [hfirst.unique hn]
      exact .cons hn' (ih hspells)

theorem WordsSay.respelled {first first' : List Char} {numerals numerals' : List (List Char)}
    {command : Command} (h : WordsSay (first :: numerals) command)
    (hfirst : SameLetters first first') (hsame : List.Forall₂ SameNumber numerals numerals') :
    WordsSay (first' :: numerals') command := by
  cases h with
  | intro hname hnumerals =>
    refine .intro ?_ (spells_of_same hsame hnumerals)
    rw [sameLetters_iff] at hname hfirst ⊢
    exact hfirst.symm.trans hname

theorem says_iff {line : String} {words : List (List Char)} (hshows : Shows line.toList words)
    {command : Command} : Says line command ↔ WordsSay words command := by
  constructor
  · rintro ⟨found, hfound, hsays⟩
    have hwords := hshows.wordsFrom_eq
    rw [hfound.wordsFrom_eq] at hwords
    exact hwords ▸ hsays
  · exact fun hsays => ⟨words, hshows, hsays⟩

/-- **The console accepts exactly its grammar.** A line is read as a command exactly if it says
that command: its words are the name of the command in letters of either case, and one numeral for
each value of the command, in order. A line that says no command is refused. Lines whose names
differ in nothing but case and whose numerals have the same values are read as the same command or
both refused, whatever their blanks, bases, signs and leading zeros. -/
theorem ofLine_exact :
    (∀ line command, Command.ofLine line = .ok command ↔ Says line command) ∧
    (∀ line, (∃ e, Command.ofLine line = .error e) ↔ ∀ command, ¬Says line command) ∧
    (∀ (line line' : String) first first' numerals numerals',
      Shows line.toList (first :: numerals) → Shows line'.toList (first' :: numerals') →
      SameLetters first first' → List.Forall₂ SameNumber numerals numerals' →
      ∀ command, Command.ofLine line = .ok command ↔ Command.ofLine line' = .ok command) := by
  refine ⟨fun line command => ofLine_eq_ok_iff, fun line => ?_, ?_⟩
  · simp only [← ofLine_eq_ok_iff]
    cases Command.ofLine line with
    | error e => exact ⟨fun _ => nofun, fun _ => ⟨e, rfl⟩⟩
    | ok command => exact ⟨nofun, fun h => absurd rfl (h command)⟩
  · intro line line' first first' numerals numerals' hshows hshows' hfirst hsame command
    rw [ofLine_eq_ok_iff, ofLine_eq_ok_iff, says_iff hshows, says_iff hshows']
    have hback : SameLetters first' first := by
      rw [sameLetters_iff] at hfirst ⊢
      exact hfirst.symm
    have hsame' : List.Forall₂ SameNumber numerals' numerals :=
      (hsame.imp fun _ _ ⟨n, hn, hn'⟩ => ⟨n, hn', hn⟩).flip
    exact ⟨fun h => h.respelled hfirst hsame, fun h => h.respelled hback hsame'⟩

/-- One command in two spellings, with a sign behind the marker of a base, both bases, leading
zeros and blanks that are not ASCII; a sign in front of the marker is refused. -/
theorem ofLine_exact_write :
    let line := "write 0x+50 +0016 0Xff"
    let line' := "\u2003WRITE\t80 0x010\n+00000000000000000000255 "
    Shows line.toList ["write".toList, "0x+50".toList, "+0016".toList, "0Xff".toList] ∧
    Shows line'.toList
      ["WRITE".toList, "80".toList, "0x010".toList, "+00000000000000000000255".toList] ∧
    Command.ofLine line = .ok (.write 0x50 16 255) ∧
    Command.ofLine line' = .ok (.write 0x50 16 255) ∧
    ¬Says "write +0x50 16 255" (.write 0x50 16 255) := by
  intro line line'
  obtain ⟨hread, -, hsame⟩ := ofLine_exact
  have hshows : Shows line.toList
      ["write".toList, "0x+50".toList, "+0016".toList, "0Xff".toList] :=
    shows_iff_wordsFrom.mpr (by decide +kernel)
  have hshows' : Shows line'.toList
      ["WRITE".toList, "80".toList, "0x010".toList, "+00000000000000000000255".toList] :=
    shows_iff_wordsFrom.mpr (by decide +kernel)
  have hletters : SameLetters "write".toList "WRITE".toList := sameLetters_iff.mpr (by decide)
  have hspells {word : List Char} {n : Nat} (h : numeral? word = some n) : Spells word n :=
    numeral?_eq_some_iff.mp h
  have hline : Command.ofLine line = .ok (.write 0x50 16 255) := by
    refine (hread _ _).mpr ⟨_, hshows, .intro ?_ ?_⟩
    · exact sameLetters_iff.mpr (by decide)
    · exact .cons (hspells (by decide))
        (.cons (hspells (by decide)) (.cons (hspells (by decide)) .nil))
  refine ⟨hshows, hshows', hline, ?_, fun hsays => ?_⟩
  · refine (hsame line line' _ _ _ _ hshows hshows' hletters ?_ _).mp hline
    exact .cons ⟨80, hspells (by decide), hspells (by decide)⟩
      (.cons ⟨16, hspells (by decide), hspells (by decide)⟩
        (.cons ⟨255, hspells (by decide), hspells (by decide)⟩ .nil))
  · have hrefused : Command.ofLine "write +0x50 16 255" = .error (.invalidNumber "+0x50") := by
      decide +kernel
    rw [(hread _ _).mpr hsays] at hrefused
    cases hrefused

end Firmware.I2c.Console
