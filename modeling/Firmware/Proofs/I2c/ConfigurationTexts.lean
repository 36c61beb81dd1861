/-
  Firmware: configuration texts. A document is answered by what its members say of the fields: it
  is refused if they spoil one, and the defaults with every field settled are checked if not. The
  way it is written, the order of its members and those that name no field make no difference, and
  a text that is no document is refused.
-/
import Firmware.Proofs.I2c.Configuration
import Firmware.Proofs.Json.Strictness

namespace Firmware.I2c.Config

open Json

/-- The members that name a field. -/
def named (given : List (String × Value)) : List (String × Value) :=
  given.filter fun member => (Field.ofKey? member.1).isSome

/-- Members that name no field say nothing. -/
theorem said_named (field : Field) (given : List (String × Value)) :
    field.said (named given) = field.said given := by
  induction given with
  | nil => rfl
  | cons member rest ih =>
    obtain ⟨key, value⟩ := member
    by_cases hkey : key = field.key
    · subst hkey
      have hnamed : named ((field.key, value) :: rest) = (field.key, value) :: named rest :=
        List.filter_cons_of_pos (by rw [Field.ofKey?_key]; rfl)
      rw [hnamed, Field.said_cons_self, Field.said_cons_self, ih]
    · rw [Field.said_cons_ne hkey, ← ih, named, List.filter_cons]
      split
      · exact Field.said_cons_ne hkey value _
      · rfl

/-- How a text is answered whose members, read one by one, override the defaults. It is refused if
they spoil a field; if not, what every field comes out as is checked. -/
structure Answers (text : String) (given : List (String × Value)) : Prop where
  refused : (∃ field : Field, field.Spoilt (field.said given)) → ofJson text = .error .parse
  overridden : (∀ field : Field, ¬field.Spoilt (field.said given)) →
    ∃ config : Config,
      (∀ field : Field, field.Settles (field.said given) (field.get {}) (field.get config)) ∧
      ofJson text = config.validate.map fun _ => config

theorem answers_of_ofMembers? {text : String} {given : List (String × Value)}
    (h : (Outline.ofText? text).bind ofOutline? = ofMembers? {} [] (shown given)) :
    Answers text given := by
  constructor
  · rintro ⟨field, hspoilt⟩
    rw [ofJson, h]
    cases hread : ofMembers? {} [] (shown given) with
    | none => rfl
    | some config =>
      have hsettles := (settles_of_ofMembers? hread field).1
      exact absurd hspoilt (Field.not_spoilt_of_settles hsettles)
  · intro hclean
    obtain ⟨config, hread, hsettles⟩ := ofMembers?_of_not_spoilt {} hclean
    exact ⟨config, hsettles, by rw [ofJson, h, hread]⟩

/-- A configuration that settles every field is the one that is checked. -/
theorem Answers.of_settles {text : String} {given : List (String × Value)} (h : Answers text given)
    (config : Config)
    (hsettles : ∀ field : Field,
      field.Settles (field.said given) (field.get {}) (field.get config)) :
    ofJson text = config.validate.map fun _ => config := by
  obtain ⟨config', hsettles', hread⟩ :=
    h.overridden fun field => Field.not_spoilt_of_settles (hsettles field)
  obtain rfl : config' = config :=
    Field.config_ext fun field => Field.settles_unique (hsettles' field) (hsettles field)
  exact hread

/-- The answer depends on what is said of each field, in any order. -/
theorem Answers.of_perm {text text' : String} {given given' : List (String × Value)}
    (h : Answers text given) (h' : Answers text' given')
    (hperm : ∀ field : Field, (field.said given).Perm (field.said given')) :
    ofJson text' = ofJson text := by
  by_cases hspoilt : ∃ field : Field, field.Spoilt (field.said given)
  · obtain ⟨field, hfield⟩ := hspoilt
    rw [h.refused ⟨field, hfield⟩, h'.refused ⟨field, Field.spoilt_of_perm (hperm field) hfield⟩]
  · obtain ⟨config, hsettles, hread⟩ := h.overridden (not_exists.mp hspoilt)
    rw [hread]
    exact h'.of_settles config fun field => Field.settles_of_perm (hperm field) (hsettles field)

theorem answers_of_gives {document : Document} {given : List (String × Value)}
    (gives : document.value.Gives given) : Answers document.text given := by
  apply answers_of_ofMembers?
  rw [ofText?_document, ofTokens?_object gives]
  rfl

theorem answers_of_lists {document : Document} {values : List Value}
    (lists : document.value.Lists values) (hlength : values.length ≤ Field.all.length) :
    Answers document.text (inOrder Field.all values) := by
  apply answers_of_ofMembers?
  rw [ofText?_document, ofTokens?_array lists]
  exact ofElements?_inOrder hlength (by decide) fun _ _ => List.not_mem_nil

theorem ofJson_of_too_many {document : Document} {values : List Value}
    (lists : document.value.Lists values) (hlength : Field.all.length < values.length) :
    ofJson document.text = .error .parse := by
  have hread : ofElements? {} Field.all (values.map Value.item) = none :=
    ofElements?_eq_none (by rwa [List.length_map]) {}
  rw [ofJson, ofText?_document, ofTokens?_array lists, Option.bind_some, ofOutline?, hread]

theorem document_of_ofJson {text : String} (h : ofJson text ≠ .error .parse) :
    ∃ document : Document, document.text = text ∧
      ((∃ given, document.value.Gives given) ∨ ∃ values, document.value.Lists values) := by
  rw [ofJson] at h
  split at h
  · exact absurd rfl h
  next config hread =>
  obtain ⟨outline, htext, houtline⟩ := Option.bind_eq_some_iff.mp hread
  obtain ⟨document, rfl⟩ := document_of_ofText? htext
  refine ⟨document, rfl, ?_⟩
  rw [ofText?_document] at htext
  cases hvalue : document.value with
  | emptyArray inner => exact .inr ⟨_, .empty⟩
  | array elements => exact .inr ⟨_, .array⟩
  | emptyObject inner => exact .inl ⟨_, .empty⟩
  | object members =>
    rw [hvalue, Value.tokens, ofTokens?_members] at htext
    obtain ⟨shown, hshown, rfl⟩ := Option.map_eq_some_iff.mp htext
    obtain ⟨given, hgiven⟩ := gives_of_members? members hshown (key_of_ofMembers? houtline)
    exact .inl ⟨given, .object hgiven⟩
  | _ =>
    rw [hvalue] at htext
    obtain rfl := Option.some.inj htext
    cases houtline

theorem sound_of_ofJson {text : String} {config : Config} (h : ofJson text = .ok config) :
    config.baseAddress % 4 = 0 ∧ config.timeoutBudget ≠ 0 ∧ config.scanTimeoutBudget ≠ 0 := by
  rw [ofJson] at h
  split at h
  · cases h
  · next read _ =>
    rw [validate] at h
    split at h
    · cases h
    · next haligned =>
      split at h
      · cases h
      · next hbudgets =>
        obtain rfl : read = config := Except.ok.inj h
        exact ⟨Decidable.not_not.mp haligned, not_or.mp hbudgets⟩

/-- **A configuration text is the defaults, overridden field by field.** An object, however it is
written and whatever else it holds, is refused if it names a field twice or gives it anything but
a plain natural number that fits; otherwise the fields that it names are replaced and the result is
checked. So the answer only depends on the members that name a field, in any order. The elements of
an array are read as the fields in the order of their declaration, as many as there are and no more.
No text but these can be read, and what is accepted can run a controller. -/
theorem ofJson_overrides (document : Document) :
    (∀ given, document.value.Gives given →
      Answers document.text given ∧
      ∀ (other : Document) (given' : List (String × Value)), other.value.Gives given' →
        (named given).Perm (named given') → ofJson other.text = ofJson document.text) ∧
    (∀ values, document.value.Lists values →
      (values.length ≤ Field.all.length → Answers document.text (inOrder Field.all values)) ∧
      (Field.all.length < values.length → ofJson document.text = .error .parse)) ∧
    (∀ text : String, ofJson text ≠ .error .parse → ∃ document : Document, document.text = text ∧
      ((∃ given, document.value.Gives given) ∨ ∃ values, document.value.Lists values)) ∧
    ∀ (text : String) (config : Config), ofJson text = .ok config →
      config.baseAddress % 4 = 0 ∧ config.timeoutBudget ≠ 0 ∧ config.scanTimeoutBudget ≠ 0 := by
  refine ⟨fun given gives => ?_, fun values lists => ?_, fun text => document_of_ofJson,
    fun text config => sound_of_ofJson⟩
  · have hanswers := answers_of_gives gives
    refine ⟨hanswers, fun other given' gives' hperm => ?_⟩
    refine hanswers.of_perm (answers_of_gives gives') fun field => ?_
    rw [← said_named field given, ← said_named field given']
    exact (hperm.map _).filterMap _
  · exact ⟨answers_of_lists lists, ofJson_of_too_many lists⟩

namespace Samples

def eight : Value :=
  .number ⟨false, [8], none, none, by decide, fun _ h => absurd (List.cons.inj h).1 (by decide)⟩

/-- The name `"\u0074imeout_budget" `, its first letter escaped. -/
def escapedTimeout : Name where
  before := .empty
  key := .unit ⟨⟨0, false⟩, ⟨0, false⟩, ⟨7, false⟩, ⟨4, false⟩⟩ ::
    plainly "imeout_budget".toList (plain_of_all (by decide))
  after := ⟨[' '], by simp⟩

theorem escapedTimeout_spells : Spells escapedTimeout.key "timeout_budget".toList :=
  .unit (by decide) (by decide) (spells_plainly _ _)

def plainTimeout : Name :=
  ⟨.empty, plainly "timeout_budget".toList (plain_of_all (by decide)), .empty⟩

def faceLead : CodeUnit := ⟨⟨13, false⟩, ⟨8, false⟩, ⟨3, false⟩, ⟨13, false⟩⟩

def faceTrail : CodeUnit := ⟨⟨13, true⟩, ⟨14, true⟩, ⟨0, true⟩, ⟨0, true⟩⟩

/-- The name `"\ud83d\uDE00"`, a surrogate pair. -/
def face : Name := ⟨.empty, [.unit faceLead, .unit faceTrail], .empty⟩

theorem face_spells : Spells face.key "😀".toList := by
  have htext : "😀".toList = [Char.ofNat
      (0x10000 + (faceLead.value - 0xD800) * 0x400 + (faceTrail.value - 0xDC00))] := by decide
  rw [htext]
  exact .pair (by decide) (by decide) .nil

/-- The text `{"\u0074imeout_budget" :8,"\ud83d\uDE00":[{}]}`. -/
def overriding : Document where
  before := .empty
  value := .object (.more escapedTimeout .empty eight .empty
    (.last face .empty (.array (.last .empty (.emptyObject .empty) .empty)) .empty))
  after := .empty

/-- The same with the members exchanged, and with other blanks and another unknown value. -/
def reordered : Document where
  before := ⟨['\n'], by simp⟩
  value := .object (.more face .empty .null .empty
    (.last plainTimeout ⟨['\t'], by simp⟩ eight .empty))
  after := ⟨['\r', '\n'], by simp⟩

/-- The same name twice, in two spellings. -/
def repeating : Document where
  before := .empty
  value := .object (.more escapedTimeout .empty eight .empty
    (.last plainTimeout .empty eight .empty))
  after := .empty

/-- The array `[8]`. -/
def short : Document := ⟨.empty, .array (.last .empty eight .empty), .empty⟩

/-- The array `[8,8,8,8,8,8]`. -/
def long : Document where
  before := .empty
  value := .array (.more .empty eight .empty (.more .empty eight .empty (.more .empty eight .empty
    (.more .empty eight .empty (.more .empty eight .empty (.last .empty eight .empty))))))
  after := .empty

theorem ofJson_overrides_samples :
    ofJson overriding.text = .ok { timeoutBudget := 8 } ∧
    ofJson reordered.text = .ok { timeoutBudget := 8 } ∧
    ofJson repeating.text = .error .parse ∧
    ofJson short.text = .ok { baseAddress := 8 } ∧
    ofJson long.text = .error .parse ∧
    (∃ document : Document, document.text = short.text ∧
      ((∃ given, document.value.Gives given) ∨ ∃ values, document.value.Lists values)) ∧
    ((8 : UInt64) % 4 = 0 ∧ (1000000 : UInt32) ≠ 0 ∧ (1000 : UInt32) ≠ 0) := by
  obtain ⟨hobject, -, -⟩ := ofJson_overrides overriding
  obtain ⟨hanswers, hsame⟩ := hobject _ (.object (.more escapedTimeout_spells (.last face_spells)))
  have hread : ofJson overriding.text = .ok { timeoutBudget := 8 } :=
    hanswers.of_settles { timeoutBudget := 8 } fun field => by
      cases field with
      | timeoutBudget => exact .replaced _ (by decide)
      | _ => exact .kept _
  have hreordered : ofJson reordered.text = ofJson overriding.text := by
    refine hsame reordered _ (.object (.more face_spells (.last (spells_plainly _ _)))) ?_
    exact .refl _
  have hrepeating : ofJson repeating.text = .error .parse := by
    have hgives := ((ofJson_overrides repeating).1 _
      (.object (.more escapedTimeout_spells (.last (spells_plainly _ _))))).1
    exact hgives.refused ⟨.timeoutBudget, .inl (by decide)⟩
  have hshort : ofJson short.text = .ok { baseAddress := 8 } := by
    have hanswers := ((ofJson_overrides short).2.1 _ .array).1 (by decide)
    exact hanswers.of_settles { baseAddress := 8 } fun field => by
      cases field with
      | baseAddress => exact .replaced _ (by decide)
      | _ => exact .kept _
  have hlong := ((ofJson_overrides long).2.1 _ .array).2 (by decide)
  have haccepted : ofJson short.text ≠ .error .parse := by
    rw [hshort]
    intro h
    cases h
  exact ⟨hread, hreordered.trans hread, hrepeating, hshort, hlong,
    (ofJson_overrides short).2.2.1 _ haccepted, (ofJson_overrides short).2.2.2 _ _ hshort⟩

end Samples

end Firmware.I2c.Config
