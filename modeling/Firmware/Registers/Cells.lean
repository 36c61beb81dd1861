/-
  Firmware: sparse registers. Every address holds a word, zero until something else is stored.
  `get_set` says that a store changes its own address and no other.
-/
import Firmware.Registers.Basic

namespace Firmware

/-- A word at every address; those not listed hold zero. -/
structure Cells where
  entries : List (UInt64 × UInt32) := []

namespace Cells

def get (cells : Cells) (address : UInt64) : UInt32 := (cells.entries.lookup address).getD 0

def set (cells : Cells) (address : UInt64) (value : UInt32) : Cells :=
  ⟨(address, value) :: cells.entries.filter (fun entry => entry.1 != address)⟩

/-- Sparse registers as a back end. -/
def registers : Registers Cells where
  read address cells := (cells.get address, cells)
  write address value cells := cells.set address value

theorem lookup_filter_ne {entries : List (UInt64 × UInt32)} {a b : UInt64} (h : b ≠ a) :
    (entries.filter (fun entry => entry.1 != a)).lookup b = entries.lookup b := by
  have hb : (b == a) = false := by simpa using h
  induction entries with
  | nil => rfl
  | cons entry rest ih =>
    obtain ⟨c, v⟩ := entry
    by_cases hc : c = a
    · simp [hc, List.lookup_cons, hb, ih]
    · simp [hc, List.lookup_cons, ih]

theorem get_set (cells : Cells) (a b : UInt64) (value : UInt32) :
    (cells.set a value).get b = if b = a then value else cells.get b := by
  by_cases h : b = a
  · simp [get, set, h]
  · have hb : (b == a) = false := by simpa using h
    simp [get, set, h, hb, List.lookup_cons, lookup_filter_ne h]

end Cells

end Firmware
