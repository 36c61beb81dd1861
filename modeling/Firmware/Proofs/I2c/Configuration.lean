/-
  Firmware: what members say of a configuration. They say something of the fields that they name,
  and the reader comes out with every field settled by it, or with nothing if something is said
  twice or cannot be a value of its field. The elements of an array are members without names.
-/
import Firmware.I2c.Config
import Firmware.Proofs.Json.Outlines

namespace Firmware.I2c.Config

open Json

/-! ## Fields -/

namespace Field

theorem ofKey?_key (field : Field) : ofKey? field.key = some field := by
  cases field <;> rfl

theorem key_of_ofKey? {key : String} {field : Field} (h : ofKey? key = some field) :
    key = field.key :=
  (of_decide_eq_true (List.find?_some (p := fun field : Field => field.key = key) h)).symm

theorem ne_key_of_ofKey? {key : String} (h : ofKey? key = none) (field : Field) :
    key ≠ field.key := by
  rintro rfl
  rw [ofKey?_key] at h
  cases h

theorem key_injective {field other : Field} (h : field.key = other.key) : field = other := by
  have hfield := ofKey?_key field
  rw [h, ofKey?_key] at hfield
  exact (Option.some.inj hfield).symm

theorem get_lt_bound (config : Config) (field : Field) : field.get config < field.bound := by
  cases field with
  | baseAddress => exact config.baseAddress.toNat_lt
  | timeoutBudget => exact config.timeoutBudget.toNat_lt
  | scanTimeoutBudget => exact config.scanTimeoutBudget.toNat_lt
  | maxRetries => exact config.maxRetries.toNat_lt
  | defaultSpeedHz => exact config.defaultSpeedHz.toNat_lt

theorem get_set_self (config : Config) (field : Field) {value : Nat} (h : value < field.bound) :
    field.get (field.set config value) = value := by
  cases field with
  | baseAddress => exact UInt64.toNat_ofNat_of_lt' h
  | _ => exact UInt32.toNat_ofNat_of_lt' h

theorem get_set_ne (config : Config) {field other : Field} (h : other ≠ field) (value : Nat) :
    other.get (field.set config value) = other.get config := by
  cases field <;> cases other <;> first | rfl | exact absurd rfl h

/-- A configuration is what its fields are. -/
theorem config_ext {config config' : Config}
    (h : ∀ field : Field, field.get config = field.get config') : config = config' := by
  apply Config.ext
  · exact UInt64.toNat_inj.mp (h .baseAddress)
  · exact UInt32.toNat_inj.mp (h .timeoutBudget)
  · exact UInt32.toNat_inj.mp (h .scanTimeoutBudget)
  · exact UInt32.toNat_inj.mp (h .maxRetries)
  · exact UInt32.toNat_inj.mp (h .defaultSpeedHz)

/-! ## What is said of a field -/

/-- What stands beside the key of a field, in order. -/
def among (field : Field) (readings : List (String × Option Nat)) : List (Option Nat) :=
  readings.filterMap fun reading => if reading.1 = field.key then some reading.2 else none

/-- What members say of a field, in order: the natural number that is given, if it is one. -/
def said (field : Field) (given : List (String × Value)) : List (Option Nat) :=
  field.among (given.map fun member => (member.1, member.2.natural?))

theorem said_cons_self (field : Field) (value : Value) (rest : List (String × Value)) :
    field.said ((field.key, value) :: rest) = value.natural? :: field.said rest := by
  rw [said, List.map_cons, among, List.filterMap_cons, if_pos rfl]
  rfl

theorem said_cons_ne {field : Field} {key : String} (h : key ≠ field.key) (value : Value)
    (rest : List (String × Value)) : field.said ((key, value) :: rest) = field.said rest := by
  rw [said, List.map_cons, among, List.filterMap_cons, if_neg h]
  rfl

/-- How a field comes out of what is said of it: nothing keeps its value, and one value that fits
replaces it. -/
inductive Settles (field : Field) : List (Option Nat) → Nat → Nat → Prop where
  | kept (value : Nat) : Settles field [] value value
  | replaced (before : Nat) {value : Nat} (h : value < field.bound) :
    Settles field [some value] before value

/-- Something is said twice, or cannot be a value of the field. -/
def Spoilt (field : Field) (said : List (Option Nat)) : Prop :=
  2 ≤ said.length ∨ ∃ value ∈ said, ∀ n < field.bound, value ≠ some n

theorem spoilt_cons {field : Field} {said : List (Option Nat)} (h : field.Spoilt said)
    (value : Option Nat) : field.Spoilt (value :: said) := by
  obtain hlength | ⟨bad, hmem, hbad⟩ := h
  · exact .inl (Nat.le_succ_of_le hlength)
  · exact .inr ⟨bad, List.mem_cons_of_mem value hmem, hbad⟩

theorem spoilt_of_repeated (field : Field) {said : List (Option Nat)} (h : said ≠ [])
    (value : Option Nat) : field.Spoilt (value :: said) :=
  .inl (Nat.succ_le_succ (List.length_pos_iff.mpr h))

theorem not_spoilt_of_settles {field : Field} {said : List (Option Nat)} {before after : Nat}
    (h : field.Settles said before after) : ¬field.Spoilt said := by
  cases h with
  | kept =>
    rintro (hlength | ⟨value, hmem, -⟩)
    · exact absurd hlength (by decide)
    · exact absurd hmem List.not_mem_nil
  | replaced before h =>
    rintro (hlength | ⟨value, hmem, hvalue⟩)
    · exact absurd (Nat.le_of_succ_le_succ hlength) (Nat.not_succ_le_zero 0)
    · exact hvalue _ h (List.mem_singleton.mp hmem)

theorem settles_unique {field : Field} {said : List (Option Nat)} {before after after' : Nat}
    (h : field.Settles said before after) (h' : field.Settles said before after') :
    after = after' := by
  cases h with
  | kept => cases h'; rfl
  | replaced => cases h'; rfl

theorem spoilt_of_perm {field : Field} {said said' : List (Option Nat)} (hperm : said.Perm said')
    (h : field.Spoilt said) : field.Spoilt said' := by
  obtain hlength | ⟨bad, hmem, hbad⟩ := h
  · exact .inl (hperm.length_eq ▸ hlength)
  · exact .inr ⟨bad, hperm.mem_iff.mp hmem, hbad⟩

theorem settles_of_perm {field : Field} {said said' : List (Option Nat)} {before after : Nat}
    (hperm : said.Perm said') (h : field.Settles said before after) :
    field.Settles said' before after := by
  cases h with
  | kept =>
    rw [← hperm.nil_eq]
    exact .kept _
  | replaced before h =>
    rw [← List.singleton_perm.mp hperm]
    exact .replaced before h

end Field

/-! ## Members -/

/-- A field is assigned the natural number that a value is written as, if it fits. -/
theorem assign?_item (config : Config) (field : Field) (value : Value) :
    config.assign? field value.item =
      value.natural?.bind fun n => if n < field.bound then some (field.set config n) else none := by
  cases value with
  | number n =>
    show config.assign? field (n.natural?.elim Item.other Item.natural) = n.natural?.bind _
    cases n.natural? <;> rfl
  | _ => rfl

theorem assign?_item_eq_some {config config' : Config} {field : Field} {value : Value}
    (h : config.assign? field value.item = some config') :
    ∃ n < field.bound, value.natural? = some n ∧ config' = field.set config n := by
  rw [assign?_item] at h
  obtain ⟨n, hvalue, hset⟩ := Option.bind_eq_some_iff.mp h
  split at hset
  · next hfits => exact ⟨n, hfits, hvalue, (Option.some.inj hset).symm⟩
  · cases hset

theorem assign?_item_eq_none {config : Config} {field : Field} {value : Value}
    (h : config.assign? field value.item = none) : ∀ n < field.bound, value.natural? ≠ some n := by
  intro n hfits hvalue
  rw [assign?_item, hvalue, Option.bind_some, if_pos hfits] at h
  cases h

theorem shown_cons (key : String) (value : Value) (rest : List (String × Value)) :
    shown ((key, value) :: rest) = (some key, value.item) :: shown rest := rfl

theorem ofMembers?_other (config : Config) (seen : List Field) {key : String}
    (h : Field.ofKey? key = none) (item : Item) (rest : List Member) :
    ofMembers? config seen ((some key, item) :: rest) = ofMembers? config seen rest := by
  rw [ofMembers?, h]

theorem ofMembers?_key (config : Config) {seen : List Field} {field : Field} (h : field ∉ seen)
    (item : Item) (rest : List Member) :
    ofMembers? config seen ((some field.key, item) :: rest) =
      (config.assign? field item).bind fun config => ofMembers? config (field :: seen) rest := by
  rw [ofMembers?, Field.ofKey?_key]
  show (if field ∈ seen then _ else _) = _
  rw [if_neg h]
  cases config.assign? field item <;> rfl

theorem ofMembers?_again (config : Config) {seen : List Field} {field : Field} (h : field ∈ seen)
    (item : Item) (rest : List Member) :
    ofMembers? config seen ((some field.key, item) :: rest) = none := by
  rw [ofMembers?, Field.ofKey?_key]
  exact if_pos h

/-- **Members that are read settle every field**, and say nothing more of the fields seen before
them. -/
theorem settles_of_ofMembers? {given : List (String × Value)} {config config' : Config}
    {seen : List Field} (h : ofMembers? config seen (shown given) = some config') (field : Field) :
    field.Settles (field.said given) (field.get config) (field.get config') ∧
      (field ∈ seen → field.said given = []) := by
  induction given generalizing config seen with
  | nil =>
    obtain rfl := Option.some.inj h
    exact ⟨.kept _, fun _ => rfl⟩
  | cons member rest ih =>
    obtain ⟨key, value⟩ := member
    rw [shown_cons] at h
    cases hkey : Field.ofKey? key with
    | none =>
      rw [ofMembers?_other config seen hkey] at h
      rw [Field.said_cons_ne (Field.ne_key_of_ofKey? hkey field)]
      exact ih h
    | some named =>
      obtain rfl := Field.key_of_ofKey? hkey
      by_cases hseen : named ∈ seen
      · rw [ofMembers?_again config hseen] at h
        cases h
      rw [ofMembers?_key config hseen] at h
      obtain ⟨next, hassign, hrest⟩ := Option.bind_eq_some_iff.mp h
      obtain ⟨n, hfits, hvalue, rfl⟩ := assign?_item_eq_some hassign
      obtain ⟨hsettles, hmore⟩ := ih hrest
      by_cases hfield : field = named
      · -- the rest keeps what this member gives
        subst hfield
        rw [Field.said_cons_self, hvalue]
        rw [hmore (List.mem_cons_self ..)] at hsettles ⊢
        refine ⟨?_, fun h => absurd h hseen⟩
        rw [Field.settles_unique hsettles (.kept _), Field.get_set_self config field hfits]
        exact .replaced _ hfits
      · rw [Field.said_cons_ne fun h => hfield (Field.key_injective h).symm]
        rw [Field.get_set_ne config hfield] at hsettles
        exact ⟨hsettles, fun h => hmore (List.mem_cons_of_mem named h)⟩

/-- **Members that cannot be read spoil a field**, or name one that was seen before them. -/
theorem spoilt_of_ofMembers? {given : List (String × Value)} {config : Config} {seen : List Field}
    (h : ofMembers? config seen (shown given) = none) :
    ∃ field : Field, field.Spoilt (field.said given) ∨ field ∈ seen ∧ field.said given ≠ [] := by
  induction given generalizing config seen with
  | nil => cases h
  | cons member rest ih =>
    obtain ⟨key, value⟩ := member
    rw [shown_cons] at h
    cases hkey : Field.ofKey? key with
    | none =>
      rw [ofMembers?_other config seen hkey] at h
      obtain ⟨field, hfield⟩ := ih h
      refine ⟨field, ?_⟩
      rw [Field.said_cons_ne (Field.ne_key_of_ofKey? hkey field)]
      exact hfield
    | some named =>
      obtain rfl := Field.key_of_ofKey? hkey
      by_cases hseen : named ∈ seen
      · exact ⟨named, .inr ⟨hseen, by rw [Field.said_cons_self]; exact List.cons_ne_nil _ _⟩⟩
      rw [ofMembers?_key config hseen] at h
      cases hassign : config.assign? named value.item with
      | none =>
        refine ⟨named, .inl (.inr ⟨value.natural?, ?_, assign?_item_eq_none hassign⟩)⟩
        rw [Field.said_cons_self]
        exact List.mem_cons_self ..
      | some next =>
        rw [hassign] at h
        obtain ⟨field, hfield⟩ := ih h
        refine ⟨field, ?_⟩
        by_cases hsame : field = named
        · -- named again behind this member, the field is said twice
          subst hsame
          rw [Field.said_cons_self]
          obtain hspoilt | ⟨-, hagain⟩ := hfield
          · exact .inl (Field.spoilt_cons hspoilt _)
          · exact .inl (field.spoilt_of_repeated hagain _)
        · rw [Field.said_cons_ne fun h => hsame (Field.key_injective h).symm]
          obtain hspoilt | ⟨hmem, hagain⟩ := hfield
          · exact .inl hspoilt
          · exact .inr ⟨(List.mem_cons.mp hmem).resolve_left hsame, hagain⟩

/-- Members that spoil no field are read. -/
theorem ofMembers?_of_not_spoilt {given : List (String × Value)} (config : Config)
    (h : ∀ field : Field, ¬field.Spoilt (field.said given)) :
    ∃ config', ofMembers? config [] (shown given) = some config' ∧
      ∀ field : Field,
        field.Settles (field.said given) (field.get config) (field.get config') := by
  cases hread : ofMembers? config [] (shown given) with
  | none =>
    obtain ⟨field, hspoilt | ⟨hseen, -⟩⟩ := spoilt_of_ofMembers? hread
    · exact absurd hspoilt (h field)
    · exact absurd hseen List.not_mem_nil
  | some config' => exact ⟨config', rfl, fun field => (settles_of_ofMembers? hread field).1⟩

/-- Members are read as the configuration that settles every field. -/
theorem ofMembers?_of_settles {given : List (String × Value)} {config config' : Config}
    (h : ∀ field : Field, field.Settles (field.said given) (field.get config) (field.get config')) :
    ofMembers? config [] (shown given) = some config' := by
  obtain ⟨read, hread, hsettles⟩ :=
    ofMembers?_of_not_spoilt config fun field => Field.not_spoilt_of_settles (h field)
  rw [hread, Field.config_ext fun field => Field.settles_unique (hsettles field) (h field)]

/-- Members are only read if all of their keys are texts. -/
theorem key_of_ofMembers? {members : List Member} {config config' : Config} {seen : List Field}
    (h : ofMembers? config seen members = some config') : ∀ member ∈ members, member.1 ≠ none := by
  fun_induction ofMembers? config seen members with
  | case1 => exact fun _ hmem => absurd hmem List.not_mem_nil
  | case2 | case4 | case5 => cases h
  | case3 config seen key item rest _ ih =>
    exact List.forall_mem_cons.mpr ⟨Option.some_ne_none key, ih h⟩
  | case6 config seen key item rest _ _ _ _ _ ih =>
    exact List.forall_mem_cons.mpr ⟨Option.some_ne_none key, ih h⟩

/-! ## Elements -/

/-- The elements of an array as members: the fields in the order of their declaration. -/
def inOrder (fields : List Field) (values : List Value) : List (String × Value) :=
  (fields.map Field.key).zip values

theorem ofElements?_inOrder {fields : List Field} {values : List Value}
    (hlength : values.length ≤ fields.length) {config : Config} {seen : List Field}
    (hfields : fields.Nodup) (hfresh : ∀ field ∈ fields, field ∉ seen) :
    ofElements? config fields (values.map Value.item) =
      ofMembers? config seen (shown (inOrder fields values)) := by
  induction fields generalizing values config seen with
  | nil =>
    obtain rfl := List.length_eq_zero_iff.mp (Nat.le_zero.mp hlength)
    rfl
  | cons field fields ih =>
    cases values with
    | nil => rfl
    | cons value values =>
      obtain ⟨hfield, hrest⟩ := List.nodup_cons.mp hfields
      have hinOrder : inOrder (field :: fields) (value :: values) =
        (field.key, value) :: inOrder fields values := rfl
      rw [hinOrder, shown_cons, ofMembers?_key config (hfresh field (List.mem_cons_self ..)),
        List.map_cons, ofElements?]
      cases config.assign? field value.item with
      | none => rfl
      | some next =>
        refine ih (Nat.le_of_succ_le_succ hlength) hrest fun other hother => ?_
        rw [List.mem_cons, not_or]
        exact ⟨fun h => hfield (h ▸ hother), hfresh other (List.mem_cons_of_mem field hother)⟩

theorem ofElements?_eq_none {fields : List Field} {items : List Item}
    (h : fields.length < items.length) (config : Config) :
    ofElements? config fields items = none := by
  induction fields generalizing items config with
  | nil =>
    cases items with
    | nil => cases h
    | cons item rest => rfl
  | cons field fields ih =>
    cases items with
    | nil => cases h
    | cons item rest =>
      rw [ofElements?]
      cases config.assign? field item with
      | none => rfl
      | some next => exact ih (Nat.lt_of_succ_lt_succ h) next

end Firmware.I2c.Config
