/-
  Firmware: what numerals are worth. Digits in some base, each a character of either case, denote
  a number by their places; reading digits finds that number and takes nothing else for digits.
-/
import Firmware.Text.Numeral
import Mathlib.Data.Nat.Digits.Defs

namespace Firmware.Numeral

/-- A character is the digit worth `d` in a base. Digits above nine are letters of either case. -/
def IsDigit (base : Nat) (c : Char) (d : Nat) : Prop :=
  d < base ∧ (c = d.digitChar ∨ c = d.digitChar.toUpper)

/-- Characters are digits of a number in a base, at least one, the first of which counts most. -/
def Denotes (base : Nat) (cs : List Char) (n : Nat) : Prop :=
  cs ≠ [] ∧ ∃ ds, List.Forall₂ (IsDigit base) cs ds ∧ n = Nat.ofDigits base ds.reverse

/-! ## Single digits -/

theorem eq_ofNat_offset {base : Nat} {c : Char} (h : base ≤ c.toNat) :
    c = Char.ofNat (base + (c.toNat - base)) := by
  rw [Nat.add_sub_cancel' h, Char.ofNat_toNat]

theorem digitChar_of_isDigit {c : Char} (h : c.isDigit = true) :
    c.toNat - 48 < 10 ∧ (c.toNat - 48).digitChar = c := by
  have hchars : ∀ d < 10, Char.ofNat (48 + d) = d.digitChar := by decide
  simp only [Char.isDigit, Bool.and_eq_true, decide_eq_true_eq, ge_iff_le] at h
  have hfrom : 48 ≤ c.toNat := h.1
  have hto : c.toNat ≤ 57 := h.2
  exact ⟨by omega, ((eq_ofNat_offset hfrom).trans (hchars _ (by omega))).symm⟩

theorem isDigit_of_isDigit {base : Nat} (hbase : 10 ≤ base) {c : Char} (h : c.isDigit = true) :
    IsDigit base c (c.toNat - 48) := by
  obtain ⟨hd, hchar⟩ := digitChar_of_isDigit h
  exact ⟨Nat.lt_of_lt_of_le hd hbase, .inl hchar.symm⟩

theorem decimalDigit?_eq_some_iff {c : Char} {d : Nat} :
    decimalDigit? c = some d ↔ IsDigit 10 c d := by
  constructor
  · intro h
    rw [decimalDigit?] at h
    split at h
    · next hdigit =>
      obtain rfl := Option.some.inj h
      exact isDigit_of_isDigit (Nat.le_refl 10) hdigit
    · cases h
  · have hdigits : ∀ d < 10, decimalDigit? d.digitChar = some d ∧
        decimalDigit? d.digitChar.toUpper = some d := by decide
    rintro ⟨hd, rfl | rfl⟩
    · exact (hdigits d hd).1
    · exact (hdigits d hd).2

theorem hexDigit?_eq_some_iff {c : Char} {d : Nat} :
    hexDigit? c = some d ↔ IsDigit 16 c d := by
  constructor
  · intro h
    rw [hexDigit?] at h
    split at h
    · next hdigit =>
      obtain rfl := Option.some.inj h
      exact isDigit_of_isDigit (by decide) hdigit
    split at h
    · next hletter =>
      have hchars : ∀ d < 6, Char.ofNat (97 + d) = (d + 10).digitChar := by decide
      obtain rfl := Option.some.inj h
      have hfrom : 97 ≤ c.toNat := hletter.1
      have hto : c.toNat ≤ 102 := hletter.2
      have hchar := (eq_ofNat_offset hfrom).trans (hchars _ (by omega))
      exact ⟨show c.toNat - 97 + 10 < 16 by omega, .inl hchar⟩
    split at h
    · next hletter =>
      have hchars : ∀ d < 6, Char.ofNat (65 + d) = (d + 10).digitChar.toUpper := by decide
      obtain rfl := Option.some.inj h
      have hfrom : 65 ≤ c.toNat := hletter.1
      have hto : c.toNat ≤ 70 := hletter.2
      have hchar := (eq_ofNat_offset hfrom).trans (hchars _ (by omega))
      exact ⟨show c.toNat - 65 + 10 < 16 by omega, .inr hchar⟩
    · cases h
  · have hdigits : ∀ d < 16, hexDigit? d.digitChar = some d ∧
        hexDigit? d.digitChar.toUpper = some d := by decide
    rintro ⟨hd, rfl | rfl⟩
    · exact (hdigits d hd).1
    · exact (hdigits d hd).2

theorem IsDigit.ne_plus {base : Nat} (hbase : base ≤ 16) {c : Char} {d : Nat}
    (h : IsDigit base c d) : c ≠ '+' := by
  have hdigits : ∀ d < 16, d.digitChar ≠ '+' ∧ d.digitChar.toUpper ≠ '+' := by decide
  obtain ⟨hd, rfl | rfl⟩ := h
  · exact (hdigits d (Nat.lt_of_lt_of_le hd hbase)).1
  · exact (hdigits d (Nat.lt_of_lt_of_le hd hbase)).2

/-! ## Runs of digits -/

variable {base : Nat} {digit? : Char → Option Nat} {cs : List Char}

/-- Reading on multiplies what was read by the base for every further digit. -/
theorem extend_eq_some_iff {acc n : Nat} : extend base digit? acc cs = some n ↔
    ∃ ds, List.Forall₂ (fun c d => digit? c = some d) cs ds ∧
      n = ds.foldl (fun value d => value * base + d) acc := by
  induction cs generalizing acc with
  | nil =>
    rw [extend, Option.some_inj]
    constructor
    · rintro rfl
      exact ⟨[], .nil, rfl⟩
    · rintro ⟨ds, hds, rfl⟩
      cases hds
      rfl
  | cons c rest ih =>
    rw [extend]
    constructor
    · intro h
      split at h
      · next d hd =>
        obtain ⟨ds, hds, hn⟩ := ih.mp h
        exact ⟨d :: ds, .cons hd hds, hn⟩
      · cases h
    · rintro ⟨ds, hds, hn⟩
      cases hds with
      | cons hd hds =>
        rw [hd]
        exact ih.mpr ⟨_, hds, hn⟩

theorem ofDigits_reverse (base : Nat) (ds : List Nat) :
    Nat.ofDigits base ds.reverse = ds.foldl (fun value d => value * base + d) 0 := by
  rw [Nat.ofDigits_eq_foldr, List.foldr_reverse]
  congr 1
  funext value d
  rw [Nat.add_comm, Nat.mul_comm]
  rfl

theorem Denotes.isDigit {n : Nat} (h : Denotes base cs n) {c : Char} (hc : c ∈ cs) :
    ∃ d, IsDigit base c d := by
  obtain ⟨-, ds, hds, -⟩ := h
  induction hds with
  | nil => cases hc
  | cons hd _ ih =>
    rcases List.mem_cons.mp hc with rfl | hc
    · exact ⟨_, hd⟩
    · exact ih hc

theorem denotes_iff_extend (hdigit : ∀ {c d}, digit? c = some d ↔ IsDigit base c d) {n : Nat} :
    Denotes base cs n ↔ cs ≠ [] ∧ extend base digit? 0 cs = some n := by
  have hsame : (fun c d => digit? c = some d) = IsDigit base :=
    funext fun c => funext fun d => propext hdigit
  rw [extend_eq_some_iff, hsame, Denotes]
  simp only [ofDigits_reverse]

theorem decimalValue?_eq_some_iff {n : Nat} : decimalValue? cs = some n ↔ Denotes 10 cs n := by
  rw [denotes_iff_extend decimalDigit?_eq_some_iff]
  cases cs with
  | nil => simp [decimalValue?]
  | cons c rest => simp [decimalValue?]

theorem hexValue?_eq_some_iff {n : Nat} : hexValue? cs = some n ↔ Denotes 16 cs n := by
  rw [denotes_iff_extend hexDigit?_eq_some_iff]
  cases cs with
  | nil => simp [hexValue?]
  | cons c rest => simp [hexValue?]

end Firmware.Numeral
