/-
  Firmware: which fault of a command line is reported. A line can be wrong in many places at once.
  The words are taken from left to right, and the first one that is missing, does not suit its
  place or is too many decides; `faults_leftmost` says so for every line that is refused.
-/
import Firmware.Proofs.I2c.Console.Grammar

namespace Firmware.I2c.Console

/-! ## Arguments -/

/-- A word is a numeral whose value lies below the bound of a parameter. -/
def Suits (word : List Char) (parameter : String × Nat) : Prop :=
  ∃ n, Spells word n ∧ n < parameter.2

/-- The leftmost fault of words that are to be arguments. All words in front of it suit their
parameters, and what comes after it does not matter. -/
inductive ArgumentFault (parameters : Parameters) (words : List (List Char)) :
    LineError → Prop where
  /-- There is no word for a parameter. -/
  | missing {before after : Parameters} {name : String} {bound : Nat}
    (hparameters : parameters = before ++ (name, bound) :: after)
    (hsuited : List.Forall₂ Suits words before) :
    ArgumentFault parameters words (.missingArgument name)
  | unsuited {before after : Parameters} {parameter : String × Nat}
    {suited rest : List (List Char)} {word : List Char}
    (hparameters : parameters = before ++ parameter :: after)
    (hwords : words = suited ++ word :: rest) (hsuited : List.Forall₂ Suits suited before)
    (hword : ¬Suits word parameter) :
    ArgumentFault parameters words (.invalidNumber (String.ofList word))
  /-- All parameters have their words, and one more follows. -/
  | surplus {suited rest : List (List Char)} {word : List Char}
    (hwords : words = suited ++ word :: rest) (hsuited : List.Forall₂ Suits suited parameters) :
    ArgumentFault parameters words (.unexpectedArgument (String.ofList word))

section

variable {parameters before : Parameters} {parameter : String × Nat} {word : List Char}
  {words suited : List (List Char)} {e : LineError}

theorem map_eq_error_iff {α β : Type} {f : α → β} {answer : Except LineError α} :
    answer.map f = .error e ↔ answer = .error e := by
  cases answer with
  | error e' => rw [Except.map, Except.error.injEq, Except.error.injEq]
  | ok a => exact ⟨nofun, nofun⟩

/-- Behind a word that suits, the leftmost fault is that of the other words. -/
theorem ArgumentFault.cons (hword : Suits word parameter)
    (h : ArgumentFault parameters words e) :
    ArgumentFault (parameter :: parameters) (word :: words) e := by
  cases h with
  | missing hparameters hsuited =>
    subst hparameters
    exact .missing (List.cons_append ..).symm (.cons hword hsuited)
  | unsuited hparameters hwords hsuited hunsuited =>
    subst hparameters hwords
    exact .unsuited (List.cons_append ..).symm (List.cons_append ..).symm
      (.cons hword hsuited) hunsuited
  | surplus hwords hsuited =>
    subst hwords
    exact .surplus (List.cons_append ..).symm (.cons hword hsuited)

theorem number_of_suits (h : Suits word parameter) :
    ∃ n, number parameter.2 (String.ofList word) = .ok n := by
  obtain ⟨n, hspells, hbound⟩ := h
  exact ⟨n, number_eq_ok_iff.mpr ⟨hspells, hbound⟩⟩

/-- A word that does not suit is reported as it stands. -/
theorem number_of_not_suits (h : ¬Suits word parameter) :
    number parameter.2 (String.ofList word) = .error (.invalidNumber (String.ofList word)) := by
  rw [number, String.toList_ofList]
  cases hvalue : numeral? word with
  | none => rfl
  | some n => exact if_neg fun hbound => h ⟨n, numeral?_eq_some_iff.mp hvalue, hbound⟩

theorem arguments_cons_of_suits (hword : Suits word parameter) :
    arguments (parameter :: parameters) (String.ofList word :: words.map String.ofList) =
        .error e ↔
      arguments parameters (words.map String.ofList) = .error e := by
  obtain ⟨n, hnumber⟩ := number_of_suits hword
  rw [arguments, hnumber]
  exact map_eq_error_iff

theorem arguments_cons_of_not_suits (hword : ¬Suits word parameter) :
    arguments (parameter :: parameters) (String.ofList word :: words.map String.ofList) =
      .error (.invalidNumber (String.ofList word)) := by
  rw [arguments, number_of_not_suits hword]

theorem arguments_append_of_suits (hsuited : List.Forall₂ Suits suited before) :
    arguments (before ++ parameters) ((suited ++ words).map String.ofList) = .error e ↔
      arguments parameters (words.map String.ofList) = .error e := by
  induction hsuited with
  | nil => rfl
  | cons hword _ ih => exact (arguments_cons_of_suits hword).trans ih

/-- Arguments are refused with their leftmost fault. -/
theorem arguments_eq_error_iff :
    arguments parameters (words.map String.ofList) = .error e ↔
      ArgumentFault parameters words e := by
  constructor
  · intro h
    induction parameters generalizing words with
    | nil =>
      cases words with
      | nil => cases h
      | cons word rest =>
        cases h
        exact .surplus (List.nil_append _).symm .nil
    | cons parameter parameters ih =>
      cases words with
      | nil =>
        cases h
        exact .missing (List.nil_append _).symm .nil
      | cons word rest =>
        rw [List.map_cons] at h
        by_cases hword : Suits word parameter
        · exact .cons hword (ih ((arguments_cons_of_suits hword).mp h))
        · rw [arguments_cons_of_not_suits hword] at h
          cases h
          exact .unsuited (List.nil_append _).symm (List.nil_append _).symm .nil hword
  · intro h
    cases h with
    | missing hparameters hsuited =>
      subst hparameters
      rw [← List.append_nil words]
      exact (arguments_append_of_suits hsuited).mpr rfl
    | unsuited hparameters hwords hsuited hword =>
      subst hparameters hwords
      exact (arguments_append_of_suits hsuited).mpr (arguments_cons_of_not_suits hword)
    | surplus hwords hsuited =>
      subst hwords
      rw [← List.append_nil parameters]
      exact (arguments_append_of_suits hsuited).mpr rfl

end

/-! ## Lines -/

/-- No command has a name of these letters. -/
def NamesNone (word : List Char) : Prop := ∀ name : Name, ¬SameLetters word name.text.toList

/-- The leftmost fault of the words of a line. -/
inductive LineFault : List (List Char) → LineError → Prop where
  | empty : LineFault [] .empty
  /-- The name is shown in lower case, and the arguments are not looked at. -/
  | unknown {first : List Char} {rest : List (List Char)} (hfirst : NamesNone first) :
    LineFault (first :: rest) (.unknownCommand (lowerCase (String.ofList first)))
  | argument {first : List Char} {rest : List (List Char)} {name : Name} {e : LineError}
    (hname : SameLetters first name.text.toList) (h : ArgumentFault name.parameters rest e) :
    LineFault (first :: rest) e

section

variable {words rest : List (List Char)} {first : List Char} {e : LineError}

theorem ofText?_eq_none_iff :
    Name.ofText? (lowerCase (String.ofList first)) = none ↔ NamesNone first := by
  rw [Option.eq_none_iff_forall_ne_some]
  simp only [ne_eq, Name.ofText?_eq_some_iff, lowerCase_eq_iff]
  rfl

theorem ofWords_eq_error_iff :
    Command.ofWords (words.map String.ofList) = .error e ↔ LineFault words e := by
  cases words with
  | nil =>
    constructor
    · intro h
      cases h
      exact .empty
    · intro h
      cases h
      rfl
  | cons first rest =>
    rw [List.map_cons, Command.ofWords]
    cases hfound : Name.ofText? (lowerCase (String.ofList first)) with
    | none =>
      have hnone := ofText?_eq_none_iff.mp hfound
      constructor
      · intro h
        cases h
        exact .unknown hnone
      · intro h
        cases h with
        | unknown _ => rfl
        | argument hname _ => exact absurd hname (hnone _)
    | some name =>
      have hname := lowerCase_eq_iff.mp (Name.ofText?_eq_some_iff.mp hfound)
      dsimp only
      rw [map_eq_error_iff, arguments_eq_error_iff]
      constructor
      · exact .argument hname
      · intro h
        cases h with
        | unknown hnone => exact absurd hname (hnone _)
        | argument hsame h =>
          have hagain := Name.ofText?_eq_some_iff.mpr (lowerCase_eq_iff.mpr hsame)
          obtain rfl := Option.some.inj (hfound.symm.trans hagain)
          exact h

end

theorem ofLine_eq_error_iff {line : String} {e : LineError} :
    Command.ofLine line = .error e ↔
      ∃ words, Shows line.toList words ∧ LineFault words e := by
  constructor
  · intro h
    exact ⟨_, shows_wordsFrom line.toList (List.forall_mem_nil _), ofWords_eq_error_iff.mp h⟩
  · rintro ⟨words, hshows, h⟩
    rw [Command.ofLine, (shows_iff line words).mp hshows]
    exact ofWords_eq_error_iff.mpr h

/-- **A refused line is blamed on its leftmost fault.** A line without words is empty, and only
such a line is. A first word that names no command is reported, in lower case, whatever follows it,
and only then is a command unknown. Otherwise the parameters of the command are gone through from
left to right: the first one that has no word or whose word does not suit it is the fault, even
if more faults follow; only where every parameter has a word that suits is it the first word that
is left over. -/
theorem faults_leftmost :
    (∀ line e, Command.ofLine line = .error e ↔
      ∃ words, Shows line.toList words ∧ LineFault words e) ∧
    (∀ line, Command.ofLine line = .error .empty ↔ Shows line.toList []) ∧
    (∀ line shown, Command.ofLine line = .error (.unknownCommand shown) ↔
      ∃ first rest, Shows line.toList (first :: rest) ∧ NamesNone first ∧
        shown = lowerCase (String.ofList first)) := by
  refine ⟨fun line e => ofLine_eq_error_iff, fun line => ?_, fun line shown => ?_⟩
  · rw [ofLine_eq_error_iff]
    constructor
    · rintro ⟨words, hshows, h⟩
      cases h with
      | empty => exact hshows
      | argument _ h => cases h
    · intro hshows
      exact ⟨[], hshows, .empty⟩
  · rw [ofLine_eq_error_iff]
    constructor
    · rintro ⟨words, hshows, h⟩
      cases h with
      | unknown hfirst => exact ⟨_, _, hshows, hfirst, rfl⟩
      | argument _ h => cases h
    · rintro ⟨first, rest, hshows, hfirst, rfl⟩
      exact ⟨_, hshows, .unknown hfirst⟩

/-- The second argument is at fault, although the third is no numeral and two are left over. -/
example : Command.ofLine "WRITE 1 0x100 zz 4 5" = .error (.invalidNumber "0x100") := by
  decide +kernel

end Firmware.I2c.Console
