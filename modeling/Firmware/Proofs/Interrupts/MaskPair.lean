/-
  Firmware: the masks of the mask pair behind ports that latch. They are nowhere but in the last
  bytes written to the two mask ports; setting one changes that one, and neither programming the
  pair nor telling it that an interrupt was handled changes any.
-/
import Mathlib.Data.Nat.Bitwise
import Firmware.Interrupts.MaskPair
import Firmware.Proofs.Ports

namespace Firmware.MaskPair

/-- The port with the mask of a line. -/
def maskPort (line : Nat) : UInt16 := if line < 8 then masterData else slaveData

/-- Whether a line is masked, from the last byte written to its mask port; all lines of a port
that was never written are. -/
def masked (ports : PortScript) (line : Nat) : Bool :=
  match ports.lastWrite? (maskPort line) with
  | some byte => byte.toNat.testBit (line % 8)
  | none => true

/-! ## One byte -/

/-- The byte with one bit set. -/
def lineBit (line : Nat) : UInt8 := 1 <<< (line % 8).toUInt8

/-- A byte with the bit of a line set or cleared. -/
def withMask (line : Nat) (mask : Bool) (byte : UInt8) : UInt8 :=
  if mask then byte ||| lineBit line else byte &&& ~~~lineBit line

theorem lineBit_toNat (line : Nat) : (lineBit line).toNat = 2 ^ (line % 8) := by
  have hall : ∀ i < 8, (1 <<< i.toUInt8 : UInt8).toNat = 2 ^ i := by decide
  exact hall _ (Nat.mod_lt line (by decide))

theorem testBit_lineBit (line other : Nat) :
    (lineBit line).toNat.testBit (other % 8) = decide (line % 8 = other % 8) := by
  rw [lineBit_toNat, Nat.testBit_two_pow]

theorem testBit_not_lineBit (line other : Nat) :
    (~~~lineBit line).toNat.testBit (other % 8) = !decide (line % 8 = other % 8) := by
  have hall : ∀ i < 8, ∀ j < 8,
      (~~~(1 <<< i.toUInt8 : UInt8)).toNat.testBit j = !decide (i = j) := by decide
  exact hall _ (Nat.mod_lt line (by decide)) _ (Nat.mod_lt other (by decide))

theorem testBit_withMask (line other : Nat) (mask : Bool) (byte : UInt8) :
    (withMask line mask byte).toNat.testBit (other % 8) =
      if line % 8 = other % 8 then mask else byte.toNat.testBit (other % 8) := by
  cases mask with
  | true =>
    rw [withMask, if_pos rfl, UInt8.toNat_or, Nat.testBit_or, testBit_lineBit]
    split <;> simp [*]
  | false =>
    rw [withMask, if_neg Bool.false_ne_true, UInt8.toNat_and, Nat.testBit_and, testBit_not_lineBit]
    split <;> simp [*]

theorem and_lineBit_ne_zero (line : Nat) (byte : UInt8) :
    (byte &&& lineBit line != 0) = byte.toNat.testBit (line % 8) := by
  have hzero : byte &&& lineBit line = 0 ↔ (byte.toNat.testBit (line % 8)).toNat = 0 := by
    rw [← UInt8.toNat_inj, UInt8.toNat_and, lineBit_toNat, Nat.and_two_pow]
    simp
  cases hbit : byte.toNat.testBit (line % 8) <;> simp [hzero, hbit]

/-! ## The pair -/

/-- What a line answers if it is routed; other lines are out of range. -/
def routed {β : Type} (line : Nat) (b : β) : Except Error β :=
  if line < routedLines then .ok b else .error (.outOfRange line)

variable {ports : PortScript} {line : Nat}

theorem place?_of_lt (h : line < routedLines) :
    place? line = some (maskPort line, lineBit line) := by
  have hall : ∀ line < routedLines, place? line = some (maskPort line, lineBit line) := by decide
  exact hall line h

theorem place?_of_le (h : routedLines ≤ line) : place? line = none := by
  rw [place?, if_neg (by rw [routedLines] at h; omega), if_neg (Nat.not_lt.mpr h)]

theorem masked_eq (ports : PortScript) (line : Nat) :
    masked ports line = (ports.latched (maskPort line)).toNat.testBit (line % 8) := by
  rw [masked, PortScript.latched]
  cases ports.lastWrite? (maskPort line) with
  | some byte => rfl
  | none =>
    have hall : ∀ i < 8, PortScript.floating.toNat.testBit i = true := by decide
    exact (hall _ (Nat.mod_lt line (by decide))).symm

theorem setMasked_of_lt (latches : ports.Latches) (h : line < routedLines) (mask : Bool) :
    setMasked line mask ports = .ok (.ok (),
      ports.output (maskPort line) (withMask line mask (ports.latched (maskPort line)))) := by
  simp only [setMasked, place?_of_lt h, latches.input]
  rfl

/-- A line that is not routed is refused whatever the ports would answer: they are not read. -/
theorem setMasked_of_le (h : routedLines ≤ line) (mask : Bool) (ports : PortScript) :
    setMasked line mask ports = .ok (.error (.outOfRange line), ports) := by
  rw [setMasked, place?_of_le h]

theorem isMasked_of_le (h : routedLines ≤ line) (ports : PortScript) :
    isMasked line ports = .ok (.error (.outOfRange line), ports) := by
  rw [isMasked, place?_of_le h]

theorem isMasked_eq (latches : ports.Latches) (line : Nat) :
    isMasked line ports = .ok (routed line (masked ports line), ports) := by
  by_cases h : line < routedLines
  · simp only [isMasked, place?_of_lt h, latches.input, and_lineBit_ne_zero, masked_eq, routed,
      if_pos h]
  · rw [isMasked_of_le (Nat.not_lt.mp h), routed, if_neg h]

theorem eq_of_place {other : Nat} (h : line < routedLines) (h' : other < routedLines)
    (port : maskPort line = maskPort other) (bit : line % 8 = other % 8) : line = other := by
  have hall : ∀ line < routedLines, ∀ other < routedLines,
      maskPort line = maskPort other → line % 8 = other % 8 → line = other := by decide
  exact hall line h other h' port bit

theorem masked_output {other : Nat} (h : line < routedLines) (h' : other < routedLines)
    (mask : Bool) (ports : PortScript) :
    masked (ports.output (maskPort line) (withMask line mask (ports.latched (maskPort line))))
      other = if line = other then mask else masked ports other := by
  rw [masked_eq, PortScript.latched_output, masked_eq]
  -- lines of one port differ in their bits, and those of the two ports are in different bytes
  by_cases hport : maskPort other = maskPort line
  · rw [if_pos hport, testBit_withMask, hport]
    have hline : line % 8 = other % 8 ↔ line = other :=
      ⟨eq_of_place h h' hport.symm, congrArg (· % 8)⟩
    simp only [hline]
  · rw [if_neg hport, if_neg]
    rintro rfl
    exact hport rfl

/-- Setting the mask of one line changes no other. -/
theorem setMasked_eq (latches : ports.Latches) (line : Nat) (mask : Bool) :
    ∃ after, setMasked line mask ports = .ok (routed line (), after) ∧ after.Latches ∧
      ∀ other < routedLines,
        masked after other = if line = other then mask else masked ports other := by
  by_cases h : line < routedLines
  · rw [setMasked_of_lt latches h, routed, if_pos h]
    exact ⟨_, rfl, latches.output .., fun other h' => masked_output h h' mask ports⟩
  · rw [setMasked_of_le (Nat.not_lt.mp h), routed, if_neg h]
    refine ⟨_, rfl, latches, fun other h' => (if_neg ?_).symm⟩
    rintro rfl
    exact h h'

theorem masked_congr {ports' : PortScript}
    (master : ports'.latched masterData = ports.latched masterData)
    (slave : ports'.latched slaveData = ports.latched slaveData) :
    masked ports' = masked ports := by
  funext line
  rw [masked_eq, masked_eq, maskPort]
  split
  · rw [master]
  · rw [slave]

theorem remap_eq (latches : ports.Latches) (master slave : UInt8) :
    ∃ after, remap master slave ports = .ok after ∧ after.Latches ∧
      masked after = masked ports := by
  let bytes := programming master slave ++
    [(masterData, ports.latched masterData), (slaveData, ports.latched slaveData)]
  have hremap : remap master slave ports =
      .ok (bytes.foldl (fun ports byte => ports.output byte.1 byte.2) ports) := by
    simp only [remap, latches.input]
    rfl
  refine ⟨_, hremap, latches.outputs bytes, masked_congr ?_ ?_⟩
  -- whatever was written between, the two masks are written last
  all_goals
    simp only [bytes, List.foldl_append, List.foldl_cons, List.foldl_nil,
      PortScript.latched_output]
    rfl

theorem masked_output_of_ne {port : UInt16} (master : masterData ≠ port) (slave : slaveData ≠ port)
    (value : UInt8) (ports : PortScript) : masked (ports.output port value) = masked ports :=
  masked_congr (by rw [PortScript.latched_output, if_neg master])
    (by rw [PortScript.latched_output, if_neg slave])

theorem acknowledge_eq (latches : ports.Latches) (line : Nat) :
    (acknowledge line ports).Latches ∧ masked (acknowledge line ports) = masked ports := by
  have hmaster : ∀ ports, masked (ports.output masterCommand endOfInterrupt) = masked ports :=
    masked_output_of_ne (by decide) (by decide) _
  have hslave : ∀ ports, masked (ports.output slaveCommand endOfInterrupt) = masked ports :=
    masked_output_of_ne (by decide) (by decide) _
  unfold acknowledge
  split
  · exact ⟨(latches.output ..).output .., (hmaster _).trans (hslave _)⟩
  · exact ⟨latches.output .., hmaster _⟩

end Firmware.MaskPair
