/-
  Firmware: the words of a text. `shows_iff` says that a text is cut at its blanks and nowhere
  else: its words are the longest runs of other characters, in their order.
-/
import Firmware.Text.Blank

namespace Firmware

/-- A text shows words: each is a run of characters that are not blank, as long as it can be, and
there is nothing but blanks around them. -/
inductive Shows : List Char → List (List Char) → Prop where
  | blank {gap : List Char} (hgap : ∀ c ∈ gap, isWhite c = true) : Shows gap []
  | word {gap word rest : List Char} {words : List (List Char)}
    (hgap : ∀ c ∈ gap, isWhite c = true) (hne : word ≠ [])
    (hword : ∀ c ∈ word, isWhite c = false) (hends : ∀ c ∈ rest.head?, isWhite c = true)
    (hrest : Shows rest words) : Shows (gap ++ (word ++ rest)) (word :: words)

variable {cs gap word rest : List Char} {found : List (List Char)} {c : Char}

/-! ## What is found is shown -/

theorem Shows.front (hne : word ≠ []) (hword : ∀ c ∈ word, isWhite c = false)
    (hends : ∀ c ∈ rest.head?, isWhite c = true) (hrest : Shows rest found) :
    Shows (word ++ rest) (word :: found) :=
  Shows.word (List.forall_mem_nil _) hne hword hends hrest

theorem Shows.cons_blank (hc : isWhite c = true) (h : Shows cs found) : Shows (c :: cs) found := by
  cases h with
  | blank hgap => exact .blank (List.forall_mem_cons.mpr ⟨hc, hgap⟩)
  | word hgap hne hword hends hrest =>
    exact .word (List.forall_mem_cons.mpr ⟨hc, hgap⟩) hne hword hends hrest

/-- A word that was begun goes on up to the next blank. -/
theorem shows_wordsFrom (cs : List Char) {partialWord : List Char}
    (hpartial : ∀ c ∈ partialWord, isWhite c = false) :
    Shows (partialWord.reverse ++ cs) (wordsFrom partialWord cs) := by
  have hword : ∀ c ∈ partialWord.reverse, isWhite c = false :=
    fun c hmem => hpartial c (List.mem_reverse.mp hmem)
  induction cs generalizing partialWord with
  | nil =>
    unfold wordsFrom
    split
    · next hnone =>
      subst hnone
      exact .blank (List.forall_mem_nil _)
    · next hsome =>
      exact .front (List.reverse_ne_nil_iff.mpr hsome) hword (fun d hd => by cases hd)
        (.blank (List.forall_mem_nil _))
  | cons c rest ih =>
    unfold wordsFrom
    split
    · next hwhite =>
      have hnothing : ∀ d ∈ [], isWhite d = false := List.forall_mem_nil _
      have hrest : Shows (c :: rest) (wordsFrom [] rest) :=
        (ih hnothing hnothing).cons_blank hwhite
      split
      · next hnone =>
        subst hnone
        exact hrest
      · next hsome =>
        refine .front (List.reverse_ne_nil_iff.mpr hsome) hword (fun d hd => ?_) hrest
        exact Option.some.inj hd ▸ hwhite
    · next hblack =>
      have hcons : ∀ d ∈ c :: partialWord, isWhite d = false :=
        List.forall_mem_cons.mpr ⟨Bool.eq_false_iff.mpr hblack, hpartial⟩
      have hmore := ih hcons fun d hmem => hcons d (List.mem_reverse.mp hmem)
      rwa [List.reverse_cons, List.append_assoc] at hmore

/-! ## What is shown is found -/

theorem wordsFrom_gap (hgap : ∀ c ∈ gap, isWhite c = true) (cs : List Char) :
    wordsFrom [] (gap ++ cs) = wordsFrom [] cs := by
  induction gap with
  | nil => rfl
  | cons c gap ih =>
    obtain ⟨hc, hgap⟩ := List.forall_mem_cons.mp hgap
    rw [List.cons_append, wordsFrom, if_pos hc, if_pos rfl]
    exact ih hgap

theorem wordsFrom_word (hword : ∀ c ∈ word, isWhite c = false)
    (hends : ∀ c ∈ rest.head?, isWhite c = true) {partialWord : List Char}
    (hne : partialWord ≠ [] ∨ word ≠ []) :
    wordsFrom partialWord (word ++ rest) =
      (partialWord.reverse ++ word) :: wordsFrom [] rest := by
  induction word generalizing partialWord with
  | nil =>
    have hsome : partialWord ≠ [] := hne.resolve_right fun h => h rfl
    rw [List.nil_append, List.append_nil]
    cases rest with
    | nil =>
      rw [wordsFrom, if_neg hsome]
      rfl
    | cons c rest =>
      have hwhite : isWhite c = true := hends c rfl
      rw [wordsFrom, if_pos hwhite, if_neg hsome, wordsFrom, if_pos hwhite, if_pos rfl]
  | cons c word ih =>
    obtain ⟨hc, hword⟩ := List.forall_mem_cons.mp hword
    rw [List.cons_append, wordsFrom, if_neg (Bool.eq_false_iff.mp hc),
      ih hword (.inl (List.cons_ne_nil _ _)), List.reverse_cons, List.append_assoc]
    rfl

theorem Shows.wordsFrom_eq (h : Shows cs found) : wordsFrom [] cs = found := by
  induction h with
  | @blank gap hgap =>
    have hend := wordsFrom_gap hgap []
    rw [List.append_nil] at hend
    exact hend
  | word hgap hne hword hends _ ih =>
    rw [wordsFrom_gap hgap, wordsFrom_word hword hends (.inr hne), ih]
    rfl

theorem shows_iff_wordsFrom : Shows cs found ↔ wordsFrom [] cs = found := by
  constructor
  · exact Shows.wordsFrom_eq
  · rintro rfl
    exact shows_wordsFrom cs (List.forall_mem_nil _)

/-- A text shows one list of words, and it is the one that is found. -/
theorem shows_iff (text : String) (found : List (List Char)) :
    Shows text.toList found ↔ words text = found.map String.ofList := by
  have hinjective : Function.Injective (List.map String.ofList) := by
    intro a b hab
    have hback := congrArg (List.map String.toList) hab
    simpa using hback
  rw [shows_iff_wordsFrom, words]
  exact (Function.Injective.eq_iff hinjective).symm

end Firmware
