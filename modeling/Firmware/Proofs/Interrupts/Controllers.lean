/-
  Firmware: the laws that interrupt controllers keep. A global state is a word that saving
  captures and restoring writes back, whatever the masks are. Masks are bits that are set one at a
  time, whatever the global state is. Both controllers have a state and masks. A PC counts how often
  its state is captured and written back, and so does any controller that is counted.
-/
import Firmware.Interrupts.PcController
import Firmware.Proofs.Interrupts.Completion
import Firmware.Proofs.Interrupts.Counted
import Firmware.Proofs.Interrupts.MaskPair

namespace Firmware

variable {κ : Type}

/-- A controller whose global state is a word: saving answers it and turns interrupts off, writing
it back makes it the state again, and masks have nothing to do with it. -/
class GlobalState (κ : Type) [InterruptController κ] where
  word : κ → UInt64
  saved (c : κ) : (InterruptController.saveAndDisable c).1 = word c
  disabled (c : κ) : InterruptController.enabled (InterruptController.saveAndDisable c).2 = false
  restored (c c' : κ) : word (InterruptController.restore (word c) c') = word c
  enabled_congr {c c' : κ} (h : word c = word c') :
    InterruptController.enabled c = InterruptController.enabled c'
  word_setMasked (line : Nat) (masked : Bool) (c : κ) :
    word (InterruptController.setMasked line masked c).2 = word c

/-- A controller that counts how often its state is captured and how often it is written back. -/
class CountsStates (κ : Type) [InterruptController κ] where
  saves : κ → Nat
  restores : κ → Nat
  captured (c : κ) : saves (InterruptController.saveAndDisable c).2 = saves c + 1 ∧
    restores (InterruptController.saveAndDisable c).2 = restores c
  written (word : UInt64) (c : κ) : saves (InterruptController.restore word c) = saves c ∧
    restores (InterruptController.restore word c) = restores c + 1
  masked (line : Nat) (masked : Bool) (c : κ) :
    saves (InterruptController.setMasked line masked c).2 = saves c ∧
    restores (InterruptController.setMasked line masked c).2 = restores c

/-- A controller with a mask bit for each of the lines that it routes. As long as it is ready, it
sets the bit of a routed line and refuses any other line. -/
class MaskBits (κ : Type) [InterruptController κ] where
  Ready : κ → Prop
  /-- How many lines are routed. -/
  lines : κ → Nat
  masked : κ → Nat → Bool
  setMasked_eq {c : κ} (ready : Ready c) (line : Nat) (mask : Bool) :
    ∃ after, InterruptController.setMasked line mask c =
        (.ok (if line < lines c then .ok () else .error (.outOfRange line)), after) ∧
      Ready after ∧ lines after = lines c ∧
      ∀ other < lines c, masked after other = if line = other then mask else masked c other
  captured {c : κ} (ready : Ready c) : Ready (InterruptController.saveAndDisable c).2 ∧
    lines (InterruptController.saveAndDisable c).2 = lines c ∧
    masked (InterruptController.saveAndDisable c).2 = masked c
  written {c : κ} (ready : Ready c) (word : UInt64) : Ready (InterruptController.restore word c) ∧
    lines (InterruptController.restore word c) = lines c ∧
    masked (InterruptController.restore word c) = masked c

/-- A controller with mask bits meets no fault as long as it is ready. -/
theorem MaskBits.faultless [InterruptController κ] [MaskBits κ] :
    Faultless (MaskBits.Ready : κ → Prop) where
  setMasked ready line mask := by
    obtain ⟨after, hset, hready, -⟩ := MaskBits.setMasked_eq ready line mask
    exact ⟨_, after, hset, hready⟩
  captured ready := (MaskBits.captured ready).1
  written ready word := (MaskBits.written ready word).1

theorem FlagsWord.enabled_saveAndClear (flags : FlagsWord) :
    flags.saveAndClear.2.enabled = false := by
  have hclear : flags.word &&& ~~~interruptBit &&& interruptBit = 0 := by
    rw [UInt64.and_assoc, show ~~~interruptBit &&& interruptBit = 0 from rfl, UInt64.and_zero]
  exact bne_eq_false_iff_eq.mpr hclear

namespace PcController

theorem setMasked_of_ports {c : PcController} {line : Nat} {mask : Bool}
    {result : Except Error Unit} {ports : PortScript}
    (h : MaskPair.setMasked line mask c.ports = .ok (result, ports)) :
    InterruptController.setMasked line mask c = (.ok result, { c with ports }) := by
  simp only [InterruptController.setMasked, h]

theorem setMasked_of_le {line : Nat} (h : MaskPair.routedLines ≤ line) (mask : Bool)
    (c : PcController) :
    InterruptController.setMasked line mask c = (.ok (.error (.outOfRange line)), c) :=
  setMasked_of_ports (MaskPair.setMasked_of_le h mask c.ports)

theorem setMasked_flags (line : Nat) (masked : Bool) (c : PcController) :
    (InterruptController.setMasked line masked c).2.flags = c.flags := by
  simp only [InterruptController.setMasked]
  split <;> rfl

end PcController

theorem MaskArray.setMasked_of_lt {c : MaskArray} {line : Nat} (h : line < c.masked.length)
    (masked : Bool) : InterruptController.setMasked line masked c =
      (.ok (.ok ()), { c with masked := c.masked.set line masked }) :=
  if_pos h

theorem MaskArray.setMasked_of_le {c : MaskArray} {line : Nat} (h : c.masked.length ≤ line)
    (masked : Bool) : InterruptController.setMasked line masked c =
      (.ok (.error (.outOfRange line)), c) :=
  if_neg (Nat.not_lt.mpr h)

theorem MaskArray.setMasked_enabled (line : Nat) (masked : Bool) (c : MaskArray) :
    (InterruptController.setMasked line masked c).2.enabled = c.enabled := by
  by_cases h : line < c.masked.length
  · rw [setMasked_of_lt h]
  · rw [setMasked_of_le (Nat.not_lt.mp h)]

instance : GlobalState PcController where
  word c := c.flags.word
  saved _ := rfl
  disabled c := c.flags.enabled_saveAndClear
  restored _ _ := rfl
  enabled_congr h := congrArg (fun word => word &&& FlagsWord.interruptBit != 0) h
  word_setMasked line masked c := congrArg FlagsWord.word (c.setMasked_flags line masked)

instance : CountsStates PcController where
  saves c := c.flags.saves
  restores c := c.flags.restores
  captured _ := ⟨rfl, rfl⟩
  written _ _ := ⟨rfl, rfl⟩
  masked line masked c := by
    rw [c.setMasked_flags line masked]
    exact ⟨rfl, rfl⟩

instance : MaskBits PcController where
  Ready c := c.ports.Latches
  lines _ := MaskPair.routedLines
  masked c := MaskPair.masked c.ports
  setMasked_eq {c} latches line mask := by
    obtain ⟨ports, hset, hports, hmasks⟩ := MaskPair.setMasked_eq latches line mask
    exact ⟨_, PcController.setMasked_of_ports hset, hports, rfl, hmasks⟩
  captured latches := ⟨latches, rfl, rfl⟩
  written latches _ := ⟨latches, rfl, rfl⟩

instance : GlobalState MaskArray where
  word c := if c.enabled then 1 else 0
  saved _ := rfl
  disabled _ := rfl
  restored c _ := by
    cases h : c.enabled <;> rfl
  enabled_congr {c c'} h := by
    show c.enabled = c'.enabled
    cases hc : c.enabled <;> cases hc' : c'.enabled <;> simp [hc, hc'] at h ⊢
  word_setMasked line masked c := by
    rw [c.setMasked_enabled line masked]

instance : MaskBits MaskArray where
  Ready _ := True
  lines c := c.masked.length
  masked c line := c.masked[line]?.getD true
  setMasked_eq {c} _ line mask := by
    by_cases h : line < c.masked.length
    · rw [MaskArray.setMasked_of_lt h, if_pos h]
      refine ⟨_, rfl, trivial, List.length_set, fun other h' => ?_⟩
      rw [List.getElem?_set]
      split
      · rfl
      · rfl
    · rw [MaskArray.setMasked_of_le (Nat.not_lt.mp h), if_neg h]
      refine ⟨_, rfl, trivial, rfl, fun other h' => (if_neg ?_).symm⟩
      rintro rfl
      exact h h'
  captured _ := ⟨trivial, rfl, rfl⟩
  written _ _ := ⟨trivial, rfl, rfl⟩

instance [InterruptController κ] [MaskBits κ] : MaskBits (Counted κ) where
  Ready c := MaskBits.Ready c.controller
  lines c := MaskBits.lines c.controller
  masked c := MaskBits.masked c.controller
  setMasked_eq ready line mask := by
    obtain ⟨after, hset, hafter⟩ := MaskBits.setMasked_eq ready line mask
    exact ⟨_, Counted.setMasked_eq hset, hafter⟩
  captured ready := MaskBits.captured ready
  written ready word := MaskBits.written ready word

instance [InterruptController κ] : CountsStates (Counted κ) where
  saves c := c.saves
  restores c := c.restores
  captured _ := ⟨rfl, rfl⟩
  written _ _ := ⟨rfl, rfl⟩
  masked _ _ _ := ⟨rfl, rfl⟩

end Firmware
