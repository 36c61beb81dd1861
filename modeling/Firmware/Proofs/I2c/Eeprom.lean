/-
  Firmware: a peripheral as an EEPROM. A write transfer is told by its first byte, the new
  pointer, and by where the other bytes land; a read transfer by the slots that it shows. Both
  are said here without the single steps of a transfer, and then shown to be their sum.
-/
import Firmware.I2c.Simulator
import Firmware.I2c.Transaction
import Mathlib.Data.List.Induction

namespace Firmware.I2c

namespace Peripheral

/-- The byte that a run of bytes, sent from `start` on, leaves in a slot: of those that land
there, counted around the end of the memory, the last one. -/
def landed (start : UInt8) (bytes : List UInt8) (slot : Nat) : Option UInt8 :=
  ((bytes.zipIdx start.toNat).reverse.find? fun entry => entry.2 % memorySize = slot).map (·.1)

/-- A peripheral after a write transfer of `bytes`. -/
def written (p : Peripheral) : List UInt8 → Peripheral
  | [] => p
  | start :: bytes =>
    { memory := .ofFn fun slot => (landed start bytes slot.val).getD (p.memory.get slot),
      pointer := start + .ofNat bytes.length }

/-- The slot that is `n` behind the pointer, counted around the end of the memory. -/
def slot (p : Peripheral) (n : Nat) : Fin memorySize :=
  ⟨(p.pointer.toNat + n) % memorySize, Nat.mod_lt _ (by decide)⟩

/-- The bytes that a read transfer of some length shows. -/
def shown (p : Peripheral) (length : Nat) : List UInt8 :=
  (List.range length).map fun n => p.memory.get (p.slot n)

/-- A peripheral after a read transfer of some length. -/
def passed (p : Peripheral) (length : Nat) : Peripheral :=
  { p with pointer := p.pointer + .ofNat length }

/-! ## Writing -/

theorem landed_nil (start : UInt8) (slot : Nat) : landed start [] slot = none := rfl

theorem landed_append (start : UInt8) (bytes : List UInt8) (byte : UInt8) (slot : Nat) :
    landed start (bytes ++ [byte]) slot =
      if (start.toNat + bytes.length) % memorySize = slot then some byte
      else landed start bytes slot := by
  simp only [landed, List.zipIdx_append, List.reverse_append, List.zipIdx_singleton,
    List.reverse_singleton, List.singleton_append, List.find?_cons]
  split <;> simp_all

theorem toNat_pointer_add (start : UInt8) (n : Nat) :
    (start + UInt8.ofNat n).toNat = (start.toNat + n) % memorySize := by
  rw [UInt8.toNat_add, UInt8.toNat_ofNat']
  simp [memorySize]

theorem written_append (p : Peripheral) (start : UInt8) (bytes : List UInt8) (byte : UInt8) :
    p.written (start :: (bytes ++ [byte])) = (p.written (start :: bytes)).store byte := by
  have hpointer := toNat_pointer_add start bytes.length
  apply Peripheral.ext
  · apply Vector.ext
    intro slot hslot
    simp only [written, store, Vector.getElem_ofFn, Vector.getElem_set, landed_append, hpointer]
    split <;> rfl
  · simp only [written, store, List.length_append, List.length_singleton, UInt8.ofNat_add,
      UInt8.add_assoc]
    rfl

/-- Storing bytes one after the other from `start` on makes up a write transfer. -/
theorem foldl_store (p : Peripheral) (start : UInt8) (bytes : List UInt8) :
    bytes.foldl store { p with pointer := start } = p.written (start :: bytes) := by
  induction bytes using List.reverseRecOn with
  | nil =>
    apply Peripheral.ext
    · apply Vector.ext
      intro slot hslot
      simp [written, landed_nil, Vector.get]
    · simp [written]
  | append_singleton bytes byte ih => rw [List.foldl_append, ih, written_append]; rfl

/-! ## Reading -/

theorem slot_advance (p : Peripheral) (n : Nat) : p.advance.slot n = p.slot (n + 1) := by
  have hpointer : p.advance.pointer.toNat = (p.pointer.toNat + 1) % memorySize :=
    toNat_pointer_add p.pointer 1
  apply Fin.ext
  show (p.advance.pointer.toNat + n) % memorySize = (p.pointer.toNat + (n + 1)) % memorySize
  rw [hpointer, Nat.mod_add_mod, Nat.add_assoc, Nat.add_comm 1 n]

theorem current_eq (p : Peripheral) : p.current = p.memory.get (p.slot 0) := by
  have hslot : (p.pointer.toNat + 0) % memorySize = p.pointer.toNat :=
    Nat.mod_eq_of_lt p.pointer.toNat_lt
  simp only [current, slot, hslot]

theorem shown_succ (p : Peripheral) (length : Nat) :
    p.shown (length + 1) = p.current :: p.advance.shown length := by
  simp only [shown, List.range_succ_eq_map, List.map_cons, List.map_map, current_eq]
  congr 1
  apply List.map_congr_left
  intro n _
  rw [slot_advance]
  rfl

theorem length_shown (p : Peripheral) (length : Nat) : (p.shown length).length = length := by
  rw [shown, List.length_map, List.length_range]

theorem passed_zero (p : Peripheral) : p.passed 0 = p := by
  simp [passed]

theorem passed_succ (p : Peripheral) (length : Nat) :
    p.passed (length + 1) = p.advance.passed length := by
  simp only [passed, advance, UInt8.ofNat_add, UInt8.add_assoc]
  rw [UInt8.add_comm (UInt8.ofNat length)]
  rfl

/-! ## Reading what was written -/

/-- No more bytes than the memory holds all land, each in a slot of its own. -/
theorem landed_inside {start : UInt8} {bytes : List UInt8} (hlength : bytes.length ≤ memorySize)
    {n : Nat} (hn : n < bytes.length) :
    landed start bytes ((start.toNat + n) % memorySize) = some bytes[n] := by
  induction bytes using List.reverseRecOn with
  | nil => cases hn
  | append_singleton bytes byte ih =>
    simp only [List.length_append, List.length_singleton] at hlength hn
    rw [landed_append]
    rcases Nat.lt_or_eq_of_le (Nat.le_of_lt_succ hn) with hn | rfl
    · have hother :
          (start.toNat + bytes.length) % memorySize ≠ (start.toNat + n) % memorySize := by
        simp only [memorySize] at hlength ⊢
        omega
      rw [if_neg hother, ih (by omega) hn, List.getElem_append_left hn]
    · rw [if_pos rfl, List.getElem_concat_length rfl]

theorem landed_outside {start : UInt8} {bytes : List UInt8} {slot : Nat}
    (hslot : ∀ n < bytes.length, (start.toNat + n) % memorySize ≠ slot) :
    landed start bytes slot = none := by
  induction bytes using List.reverseRecOn with
  | nil => rfl
  | append_singleton bytes byte ih =>
    rw [List.length_append, List.length_singleton] at hslot
    rw [landed_append, if_neg (hslot _ (Nat.lt_succ_self _)),
      ih fun n hn => hslot n (Nat.lt_succ_of_lt hn)]

theorem get_written (p : Peripheral) (start : UInt8) (bytes : List UInt8)
    (slot : Fin memorySize) :
    (p.written (start :: bytes)).memory.get slot =
      (landed start bytes slot.val).getD (p.memory.get slot) :=
  Vector.getElem_ofFn slot.isLt

/-- The memory of `q` is that of `p` with bytes in the slots from `start` on, counted around the
end of the memory. -/
structure Overwritten (p : Peripheral) (start : UInt8) (bytes : List UInt8) (q : Peripheral) :
    Prop where
  inside : ∀ slot : Fin memorySize, ∀ n, (hn : n < bytes.length) →
    (start.toNat + n) % memorySize = slot.val → q.memory.get slot = bytes[n]
  outside : ∀ slot : Fin memorySize,
    (∀ n < bytes.length, (start.toNat + n) % memorySize ≠ slot.val) →
    q.memory.get slot = p.memory.get slot

theorem overwritten_written (p : Peripheral) (start : UInt8) {bytes : List UInt8}
    (hlength : bytes.length ≤ memorySize) :
    p.Overwritten start bytes (p.written (start :: bytes)) where
  inside slot n hn hslot := by
    rw [get_written, ← hslot, landed_inside hlength hn]
    rfl
  outside slot houtside := by
    rw [get_written, landed_outside houtside]
    rfl

theorem Overwritten.congr {p q q' : Peripheral} {start : UInt8} {bytes : List UInt8}
    (h : p.Overwritten start bytes q) (hmemory : q'.memory = q.memory) :
    p.Overwritten start bytes q' where
  inside slot n hn hslot := hmemory ▸ h.inside slot n hn hslot
  outside slot houtside := hmemory ▸ h.outside slot houtside

/-- Setting the pointer leaves the memory as it was. -/
theorem memory_written_pointer (p : Peripheral) (start : UInt8) :
    (p.written [start]).memory = p.memory := by
  apply Vector.ext
  intro slot hslot
  exact get_written p start [] ⟨slot, hslot⟩

/-- Bytes that were written from `start` on are shown once the pointer is back there. -/
theorem shown_written (p : Peripheral) (start : UInt8) {bytes : List UInt8}
    (hlength : bytes.length ≤ memorySize) :
    ((p.written (start :: bytes)).written [start]).shown bytes.length = bytes := by
  apply List.ext_getElem
  · exact length_shown _ _
  · intro n _ hn
    have hslot : (((p.written (start :: bytes)).written [start]).slot n).val =
        (start.toNat + n) % memorySize :=
      congrArg (fun pointer : UInt8 => (pointer.toNat + n) % memorySize) (UInt8.add_zero start)
    simp only [shown, List.getElem_map, List.getElem_range, memory_written_pointer, get_written]
    rw [hslot, landed_inside hlength hn]
    rfl

end Peripheral

/-- What a transfer that is acknowledged does to the peripheral that it reaches, and the payload
as it comes back. -/
def Payload.deliver : Payload → Peripheral → Payload × Peripheral
  | .write bytes, p => (.write bytes, p.written bytes)
  | .read buffer, p => (.read (p.shown buffer.length), p.passed buffer.length)

/-- The data bytes that a payload sends. -/
def Payload.sent : Payload → List UInt8
  | .write bytes => bytes
  | .read _ => []

/-- The data bytes that a transfer moves in either direction. -/
def Payload.moved (payload : Payload) (p : Peripheral) : List UInt8 :=
  match payload with
  | .write bytes => bytes
  | .read buffer => p.shown buffer.length

end Firmware.I2c
