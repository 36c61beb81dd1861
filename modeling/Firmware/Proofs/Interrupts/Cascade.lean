/-
  Firmware: which lines of a PC can interrupt the processor. The lines of the slave come in through
  line 2 of the master, whose mask is a flag like any other: it is no part of what enabling another
  line does. So a line of the slave that is enabled is held back until line 2 is unmasked itself,
  unless it was so when the system started; `delivery_needs_cascade` says which lines get through.
-/
import Firmware.Platform
import Firmware.Proofs.Interrupts.Masks

namespace Firmware

open MaskPair (routedLines masked)

namespace MaskPair

/-- The line of the master on which the slave hangs. -/
def cascadeLine : Nat := 2

/-- Interrupts of a line get through to the processor: no mask on their way holds them back. -/
structure Delivers (ports : PortScript) (line : Nat) : Prop where
  line_open : masked ports line = false
  cascade_open : 8 ≤ line → masked ports cascadeLine = false

end MaskPair

open MaskPair (cascadeLine Delivers)

variable {η τ : Type}

/-- What the mask of a line was set to last, if it was set. -/
def lastSet? (line : Nat) (history : List (MaskOperation × InterruptAnswer η MaskAnswer)) :
    Option Bool :=
  (history.filterMap (setsMask? line)).getLast?

/-- A line was left unmasked: by what set its mask last or, if nothing did, as it was found. -/
def LeftOpen (found : Nat → Bool) (history : List (MaskOperation × InterruptAnswer η MaskAnswer))
    (line : Nat) : Prop :=
  lastSet? line history = some false ∨ lastSet? line history = none ∧ found line = false

theorem masksAfter_eq_false_iff {found : Nat → Bool}
    {history : List (MaskOperation × InterruptAnswer η MaskAnswer)} {line : Nat} :
    masksAfter found history line = false ↔ LeftOpen found history line := by
  have hmasks : masksAfter found history line = (lastSet? line history).getD (found line) :=
    List.getLastD_eq_getLast? ..
  rw [hmasks, LeftOpen]
  cases lastSet? line history <;> simp

/-- A PC starts over ports that latch, with the masks that it finds. -/
theorem Platform.startPc_eq {controller : PcController} (latches : controller.ports.Latches) :
    ∃ platform : Platform PcController η τ, startPc controller = .ok platform ∧
      platform.interrupts.controller.ports.Latches ∧
      masked platform.interrupts.controller.ports = masked controller.ports := by
  obtain ⟨ports, hremap, hlatches, hmasks⟩ :=
    MaskPair.remap_eq latches MaskPair.baseVector (MaskPair.baseVector + 8)
  refine ⟨start { controller with ports } (Journal.empty.add PlatformNote.remapped.record), ?_,
    hlatches, hmasks⟩
  rw [startPc, hremap]

namespace InterruptRun

open MaskOperation

/-- **An enabled line is delivered if its cascade is open.** A PC over ports that latch starts, and
every run of operations on the masks completes. A line that was enabled last has its own mask bit
clear after it. That is all for a line of the master. A line of the slave also needs the bit of line
2 of the master, which is clear exactly if line 2 itself was enabled last in the run or, if the run
never enabled or disabled it, was found unmasked by the start: neither enabling lines of the slave
nor programming the pair clears it. -/
theorem delivery_needs_cascade (controller : PcController) (latches : controller.ports.Latches)
    (operations : List MaskOperation) :
    ∃ platform : Platform PcController η τ, Platform.startPc controller = .ok platform ∧
    let run : InterruptRun PcController η := { table := platform.interrupts }
    ∃ answers after, run.performAll (operations.map asked) = (.ok answers, after) ∧
      answers.length = operations.length ∧
      let found := masked controller.ports
      let history := operations.zip (answers.map Prod.fst)
      (masked after.ports cascadeLine = false ↔ LeftOpen found history cascadeLine) ∧
      ∀ line < routedLines, lastSet? line history = some false →
        masked after.ports line = false ∧
        (Delivers after.ports line ↔ line < 8 ∨ LeftOpen found history cascadeLine) := by
  obtain ⟨platform, hstart, hlatches, hfound⟩ := Platform.startPc_eq (η := η) (τ := τ) latches
  let run : InterruptRun PcController η := { table := platform.interrupts }
  have hports : run.ports.Latches := hlatches
  obtain ⟨answers, after, hperformed, hlength, -, -, hmasks⟩ := performAll_asked hports operations
  have hopen : ∀ line < routedLines, masked after.ports line = false ↔
      LeftOpen (masked controller.ports) (operations.zip (answers.map Prod.fst)) line := by
    intro line h
    rw [hmasks line h, masksAfter_eq_false_iff, ← hfound]
    rfl
  have hcascade := hopen cascadeLine (by decide)
  refine ⟨platform, hstart, answers, after, hperformed, hlength, hcascade,
    fun line h henabled => ?_⟩
  have hline : masked after.ports line = false := (hopen line h).mpr (.inl henabled)
  refine ⟨hline, fun hdelivers => ?_, fun hway => ⟨hline, fun hslave => ?_⟩⟩
  · rcases Nat.lt_or_ge line 8 with hmaster | hslave
    · exact .inl hmaster
    · exact .inr (hcascade.mp (hdelivers.cascade_open hslave))
  · exact hcascade.mpr (hway.resolve_left (Nat.not_lt.mpr hslave))

/-- Line 10 gets through once line 2 is enabled too, in whatever order, and line 12 does not once
it is disabled. -/
theorem delivery_needs_cascade_enabled :
    let controller : PcController := { ports := { latching := true }, flags := .create true }
    let operations : List MaskOperation := [.enable 12, .enable 10, .enable 2, .disable 12]
    ∃ platform : Platform PcController Nat Nat, Platform.startPc controller = .ok platform ∧
    let run : InterruptRun PcController Nat := { table := platform.interrupts }
    ∃ answers after, run.performAll (operations.map asked) = (.ok answers, after) ∧
      Delivers after.ports 10 ∧ ¬Delivers after.ports 12 := by
  intro controller operations
  obtain ⟨platform, hstart, answers, after, hperformed, -, hcascade, hlines⟩ :=
    delivery_needs_cascade (η := Nat) (τ := Nat) controller ⟨rfl, rfl⟩ operations
  cases hstart
  cases hperformed
  refine ⟨_, rfl, _, _, rfl, ?_, ?_⟩
  · refine (hlines 10 (by decide) (by decide +kernel)).2.mpr (.inr ?_)
    exact .inl (by decide +kernel)
  · intro hdelivers
    exact absurd hdelivers.line_open (by decide +kernel)

/-- On a PC whose masks were never written, enabling line 10 succeeds and leaves it held back: line
2, which nothing disabled, is masked. -/
theorem enabled_line_held_back :
    let controller : PcController := { ports := { latching := true }, flags := .create true }
    let operations : List MaskOperation := [.enable 10]
    ∃ platform : Platform PcController Nat Nat, Platform.startPc controller = .ok platform ∧
    let run : InterruptRun PcController Nat := { table := platform.interrupts }
    ∃ answers after, run.performAll (operations.map asked) = (.ok answers, after) ∧
      let history := operations.zip (answers.map Prod.fst)
      lastSet? 10 history = some false ∧ (∀ event ∈ history, event.1 ≠ .disable cascadeLine) ∧
      masked after.ports 10 = false ∧ masked after.ports cascadeLine = true := by
  intro controller operations
  refine ⟨_, rfl, _, _, rfl, ?_⟩
  decide +kernel

end InterruptRun

end Firmware
