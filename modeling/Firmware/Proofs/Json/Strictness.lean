/-
  Firmware: nothing but documents is read. The tokens that skipping drops for a value are written
  as one, with everything in its brackets: each bracket on the stack is closed by the kind of token
  that opened it, behind elements or members. So a text with an outline is the text of a document,
  and an object whose keys can all be read gives its values to them.
-/
import Firmware.Proofs.Json.Outlines
import Firmware.Proofs.Json.Texts

namespace Firmware.Json

/-! ## Skipping -/

theorem skipAfter_array {stack : List Bracket} {ts rest : List Token}
    (h : skipAfter (.array :: stack) ts = some rest) :
    (∃ more, ts = .closeBracket :: more ∧ skipAfter stack more = some rest) ∨
      ∃ more, ts = .comma :: more ∧ skipValue (.array :: stack) more = some rest := by
  rw [skipAfter.eq_def] at h
  split at h
  · next heq => cases heq
  · next more heq =>
    obtain ⟨-, rfl⟩ := List.cons.inj heq
    exact .inl ⟨more, rfl, h⟩
  · next more heq =>
    obtain ⟨-, rfl⟩ := List.cons.inj heq
    exact .inr ⟨more, rfl, h⟩
  · next heq => cases heq
  · next heq => cases heq
  · cases h

theorem skipAfter_object {stack : List Bracket} {ts rest : List Token}
    (h : skipAfter (.object :: stack) ts = some rest) :
    (∃ more, ts = .closeBrace :: more ∧ skipAfter stack more = some rest) ∨
      ∃ key more, ts = .comma :: .string key :: .colon :: more ∧
        skipValue (.object :: stack) more = some rest := by
  rw [skipAfter.eq_def] at h
  split at h
  · next heq => cases heq
  · next heq => cases heq
  · next heq => cases heq
  · next more heq =>
    obtain ⟨-, rfl⟩ := List.cons.inj heq
    exact .inl ⟨more, rfl, h⟩
  · next key more heq =>
    obtain ⟨-, rfl⟩ := List.cons.inj heq
    exact .inr ⟨key, more, rfl, h⟩
  · cases h

/-- A text begins with something written, and skipping goes on behind it, with fewer tokens. -/
def Leaves (stack : List Bracket) (rest : List Token) (limit : Nat) (cs written : List Char) :
    Prop :=
  ∃ (ts : List Token) (more : List Char), cs = written ++ more ∧ Texts ts more ∧
    skipAfter stack ts = some rest ∧ ts.length < limit

theorem leaves_single {stack : List Bracket} {t : Token} {ts rest : List Token}
    {behind : List Char} (before : Space) (text : List Char)
    (h : skipAfter stack ts = some rest) (texts : Texts ts behind) :
    Leaves stack rest (t :: ts).length (before.chars ++ (text ++ behind)) (before.chars ++ text) :=
  ⟨ts, behind, (List.append_assoc ..).symm, texts, h, Nat.lt_succ_self _⟩

mutual

/-- What is skipped is written as a value. -/
theorem value_of_skipValue {stack : List Bracket} {ts rest : List Token} {cs : List Char}
    (h : skipValue stack ts = some rest) (texts : Texts ts cs) :
    ∃ (before : Space) (value : Value),
      Leaves stack rest ts.length cs (before.chars ++ value.text) := by
  rw [skipValue.eq_def] at h
  split at h
  · next more =>
    obtain ⟨before, inside, rfl, hinside⟩ := texts.mark rfl
    obtain ⟨inner, behind, rfl, hbehind⟩ := hinside.mark rfl
    refine ⟨before, .emptyArray inner, more, behind, ?_, hbehind, h, ?_⟩
    · simp [Value.text]
    · simp only [List.length_cons]
      omega
  · next more _ =>
    obtain ⟨before, inside, rfl, hinside⟩ := texts.mark rfl
    obtain ⟨elements, ts', behind, rfl, hbehind, hafter, hlength⟩ :=
      elements_of_skipValue h hinside
    refine ⟨before, .array elements, ts', behind, ?_, hbehind, hafter, ?_⟩
    · simp [Value.text]
    · simp only [List.length_cons]
      omega
  · next more =>
    obtain ⟨before, inside, rfl, hinside⟩ := texts.mark rfl
    obtain ⟨inner, behind, rfl, hbehind⟩ := hinside.mark rfl
    refine ⟨before, .emptyObject inner, more, behind, ?_, hbehind, h, ?_⟩
    · simp [Value.text]
    · simp only [List.length_cons]
      omega
  · next key more =>
    obtain ⟨before, inside, rfl, hinside⟩ := texts.mark rfl
    obtain ⟨name, first, rfl, hfirst⟩ := hinside.name
    obtain ⟨members, ts', behind, hmembers, hbehind, hafter, hlength⟩ :=
      members_of_skipValue name h hfirst
    refine ⟨before, .object members, ts', behind, ?_, hbehind, hafter, ?_⟩
    · simp [Value.text, hmembers]
    · simp only [List.length_cons]
      omega
  · next more =>
    cases texts with
    | cons before first behind =>
      cases first with
      | mark hmark => cases hmark
      | null => exact ⟨before, .null, leaves_single before _ h behind⟩
  · next value more =>
    cases texts with
    | cons before first behind =>
      cases first with
      | mark hmark => cases hmark
      | yes => exact ⟨before, .boolean true, leaves_single before _ h behind⟩
      | no => exact ⟨before, .boolean false, leaves_single before _ h behind⟩
  · next value more =>
    cases texts with
    | cons before first behind =>
      cases first with
      | mark hmark => cases hmark
      | number _ n => exact ⟨before, .number n, leaves_single before _ h behind⟩
  · next key more =>
    cases texts with
    | cons before first behind =>
      cases first with
      | mark hmark => cases hmark
      | string written => exact ⟨before, .string written, leaves_single before _ h behind⟩
  · cases h
termination_by (ts.length, 0)

theorem elements_of_skipValue {stack : List Bracket} {ts rest : List Token} {cs : List Char}
    (h : skipValue (.array :: stack) ts = some rest) (texts : Texts ts cs) :
    ∃ elements : Elements, Leaves stack rest ts.length cs elements.text := by
  obtain ⟨before, value, ts', behind, rfl, hbehind, hafter, hlength⟩ := value_of_skipValue h texts
  obtain ⟨more, rfl, hrest⟩ | ⟨more, rfl, hskip⟩ := skipAfter_array hafter
  · obtain ⟨after, last, rfl, hlast⟩ := hbehind.mark rfl
    have hshort : more.length + 1 < ts.length := hlength
    refine ⟨.last before value after, more, last, ?_, hlast, hrest, by omega⟩
    simp [Elements.text]
  · obtain ⟨after, next, rfl, hnext⟩ := hbehind.mark rfl
    have hshort : more.length + 1 < ts.length := hlength
    obtain ⟨others, ts', last, rfl, hlast, hrest, hshorter⟩ := elements_of_skipValue hskip hnext
    refine ⟨.more before value after others, ts', last, ?_, hlast, hrest, by omega⟩
    simp [Elements.text]
termination_by (ts.length, 1)

/-- Skipping begins behind the first name of an object. -/
theorem members_of_skipValue {stack : List Bracket} {ts rest : List Token} {cs : List Char}
    (name : Name) (h : skipValue (.object :: stack) ts = some rest) (texts : Texts ts cs) :
    ∃ members : Members, Leaves stack rest ts.length (name.text ++ cs) members.text := by
  obtain ⟨before, value, ts', behind, rfl, hbehind, hafter, hlength⟩ := value_of_skipValue h texts
  obtain ⟨more, rfl, hrest⟩ | ⟨key, more, rfl, hskip⟩ := skipAfter_object hafter
  · obtain ⟨after, last, rfl, hlast⟩ := hbehind.mark rfl
    have hshort : more.length + 1 < ts.length := hlength
    refine ⟨.last name before value after, more, last, ?_, hlast, hrest, by omega⟩
    simp [Members.text]
  · obtain ⟨after, next, rfl, hnext⟩ := hbehind.mark rfl
    obtain ⟨name', first, rfl, hfirst⟩ := hnext.name
    have hshort : more.length + 3 < ts.length := hlength
    obtain ⟨others, ts', last, hothers, hlast, hrest, hshorter⟩ :=
      members_of_skipValue name' hskip hfirst
    refine ⟨.more name before value after others, ts', last, ?_, hlast, hrest, by omega⟩
    simp [Members.text, hothers]
termination_by (ts.length, 1)

end

/-! ## Outlines -/

/-- What is outlined as a value is skipped. -/
theorem skipValue_of_item? {ts rest : List Token} {item : Item} (h : item? ts = some (item, rest)) :
    skipValue [] ts = some rest := by
  rw [item?.eq_def] at h
  split at h
  iterate 2
    · obtain ⟨-, rfl⟩ := Prod.mk.inj (Option.some.inj h)
      rw [skipValue, skipAfter]
  · obtain ⟨after, hskip, hafter⟩ := Option.map_eq_some_iff.mp h
    obtain ⟨-, rfl⟩ := Prod.mk.inj hafter
    exact hskip

theorem value_of_item? {ts rest : List Token} {item : Item} {cs : List Char}
    (h : item? ts = some (item, rest)) (texts : Texts ts cs) :
    ∃ (before : Space) (value : Value) (behind : List Char),
      cs = before.chars ++ value.text ++ behind ∧ Texts rest behind := by
  obtain ⟨before, value, ts', behind, htext, hbehind, hafter, -⟩ :=
    value_of_skipValue (skipValue_of_item? h) texts
  obtain rfl : ts' = rest := by
    rw [skipAfter] at hafter
    exact Option.some.inj hafter
  exact ⟨before, value, behind, htext, hbehind⟩

theorem Texts.end {cs : List Char} (texts : Texts [] cs) : ∃ space : Space, cs = space.chars := by
  cases texts with
  | nil space => exact ⟨space, rfl⟩

theorem elements_of_elements? {ts : List Token} {items : List Item} {cs : List Char}
    (h : elements? ts = some items) (texts : Texts ts cs) :
    ∃ (elements : Elements) (after : Space), cs = elements.text ++ after.chars := by
  fun_induction elements? ts generalizing items cs with
  | case1 | case4 => cases h
  | case2 ts item hitem =>
    obtain ⟨before, value, behind, rfl, hbehind⟩ := value_of_item? hitem texts
    obtain ⟨after, last, rfl, hlast⟩ := hbehind.mark rfl
    obtain ⟨space, rfl⟩ := hlast.end
    exact ⟨.last before value after, space, by simp [Elements.text]⟩
  | case3 ts item rest hitem _ ih =>
    obtain ⟨others, hothers, -⟩ := Option.map_eq_some_iff.mp h
    obtain ⟨before, value, behind, rfl, hbehind⟩ := value_of_item? hitem texts
    obtain ⟨after, next, rfl, hnext⟩ := hbehind.mark rfl
    obtain ⟨elements, space, rfl⟩ := ih hothers hnext
    exact ⟨.more before value after elements, space, by simp [Elements.text]⟩

theorem members_of_members? {ts : List Token} {shown : List Member} {cs : List Char}
    (h : members? ts = some shown) (texts : Texts ts cs) :
    ∃ (members : Members) (after : Space), cs = members.text ++ after.chars := by
  fun_induction members? ts generalizing shown cs with
  | case1 | case4 | case5 => cases h
  | case2 ts key item hitem =>
    obtain ⟨name, first, rfl, hfirst⟩ := texts.name
    obtain ⟨before, value, behind, rfl, hbehind⟩ := value_of_item? hitem hfirst
    obtain ⟨after, last, rfl, hlast⟩ := hbehind.mark rfl
    obtain ⟨space, rfl⟩ := hlast.end
    exact ⟨.last name before value after, space, by simp [Members.text]⟩
  | case3 ts key item rest hitem _ ih =>
    obtain ⟨others, hothers, -⟩ := Option.map_eq_some_iff.mp h
    obtain ⟨name, first, rfl, hfirst⟩ := texts.name
    obtain ⟨before, value, behind, rfl, hbehind⟩ := value_of_item? hitem hfirst
    obtain ⟨after, next, rfl, hnext⟩ := hbehind.mark rfl
    obtain ⟨members, space, rfl⟩ := ih hothers hnext
    exact ⟨.more name before value after members, space, by simp [Members.text]⟩

/-- One value and nothing behind it, with blanks around it. -/
theorem value_of_skipped {ts : List Token} {cs : List Char} (h : skipValue [] ts = some [])
    (texts : Texts ts cs) :
    ∃ (before : Space) (value : Value) (after : Space),
      cs = before.chars ++ (value.text ++ after.chars) := by
  obtain ⟨before, value, ts', behind, rfl, hbehind, hafter, -⟩ := value_of_skipValue h texts
  rw [skipAfter] at hafter
  obtain rfl := Option.some.inj hafter
  obtain ⟨after, rfl⟩ := hbehind.end
  exact ⟨before, value, after, List.append_assoc ..⟩

theorem value_of_ofTokens? {ts : List Token} {outline : Outline} {cs : List Char}
    (h : Outline.ofTokens? ts = some outline) (texts : Texts ts cs) :
    ∃ (before : Space) (value : Value) (after : Space),
      cs = before.chars ++ (value.text ++ after.chars) := by
  rw [Outline.ofTokens?.eq_def] at h
  split at h
  · exact value_of_skipped (by rw [skipValue, skipAfter]) texts
  · exact value_of_skipped (by rw [skipValue, skipAfter]) texts
  · obtain ⟨items, hitems, -⟩ := Option.map_eq_some_iff.mp h
    obtain ⟨before, inside, rfl, hinside⟩ := texts.mark rfl
    obtain ⟨elements, after, rfl⟩ := elements_of_elements? hitems hinside
    exact ⟨before, .array elements, after, rfl⟩
  · exact value_of_skipped (by rw [skipValue, skipAfter]) texts
  · obtain ⟨shown, hshown, -⟩ := Option.map_eq_some_iff.mp h
    obtain ⟨before, inside, rfl, hinside⟩ := texts.mark rfl
    obtain ⟨members, after, rfl⟩ := members_of_members? hshown hinside
    exact ⟨before, .object members, after, rfl⟩
  iterate 3
    · exact value_of_skipped (by rw [skipValue, skipAfter]) texts
  · cases h

/-- **A text that has an outline is JSON text**: that of a document. -/
theorem document_of_ofText? {text : String} {outline : Outline}
    (h : Outline.ofText? text = some outline) : ∃ document : Document, document.text = text := by
  obtain ⟨ts, htokens, houtline⟩ := Option.bind_eq_some_iff.mp h
  obtain ⟨more, rfl, texts⟩ := texts_of_tokensFrom htokens
  obtain ⟨before, value, after, htext⟩ := value_of_ofTokens? houtline texts
  refine ⟨⟨before, value, after⟩, ?_⟩
  rw [Document.text, ← htext, String.ofList_toList]

/-- Members whose keys can all be read give their values to them. -/
theorem gives_of_members? : ∀ (members : Members) {shown : List Member},
    members? members.tokens = some shown → (∀ member ∈ shown, member.1 ≠ none) →
      ∃ given, members.Gives given
  | .last name before value after, shown, h, hkeys => by
    rw [Members.tokens, members?_last (item?_value value _)] at h
    obtain rfl := Option.some.inj h
    obtain ⟨key, hkey⟩ := Option.ne_none_iff_exists'.mp (hkeys _ (List.mem_singleton_self _))
    exact ⟨_, .last (spells_of_spelled? hkey)⟩
  | .more name before value after rest, shown, h, hkeys => by
    rw [Members.tokens, members?_more (item?_value value _)] at h
    obtain ⟨others, hothers, rfl⟩ := Option.map_eq_some_iff.mp h
    obtain ⟨key, hkey⟩ := Option.ne_none_iff_exists'.mp (hkeys _ List.mem_cons_self)
    obtain ⟨given, hgiven⟩ :=
      gives_of_members? rest hothers fun member hmem => hkeys member (List.mem_cons_of_mem _ hmem)
    exact ⟨_, .more (spells_of_spelled? hkey) hgiven⟩

end Firmware.Json
