/-
  Firmware: runs on the masks of a PC, whether a line is enabled and disabled through the interrupt
  table or the mask pair is asked itself. They are those of sixteen flags of which each keeps the
  last value that was set: programming the pair anew and telling it that an interrupt was handled
  write to its ports but change no flag. The main result is `masks_set_last`.
-/
import Firmware.Proofs.Events
import Firmware.Proofs.Interrupts.Controllers

namespace Firmware

open MaskPair (routed routedLines masked)

variable {η : Type}

/-- What is asked of the interrupt table or of the mask pair behind it. -/
inductive MaskOperation where
  | enable (line : Nat)
  | disable (line : Nat)
  | set (line : Nat) (mask : Bool)
  | isMasked (line : Nat)
  | remap (master slave : UInt8)
  | endOfInterrupt (line : Nat)
  | acknowledge (line : Nat)
  deriving DecidableEq

/-- What the mask pair answers. -/
inductive MaskAnswer where
  | done
  | set (result : Except Error Unit)
  | masked (result : Except Error Bool)

namespace MaskOperation

/-- Asks the mask pair behind its ports. -/
def ofPorts {β : Type} (answer : β → MaskAnswer)
    (act : PortScript → Except PortFault (β × PortScript)) :
    InterruptOperation PcController η MaskAnswer :=
  .controller fun c => match act c.ports with
    | .error fault => (.error fault, c)
    | .ok (b, ports) => (.ok (answer b), { c with ports })

/-- The operation in a run of the interrupt table. -/
def asked : MaskOperation → InterruptOperation PcController η MaskAnswer
  | .enable line => .enable line
  | .disable line => .disable line
  | .set line mask => ofPorts .set (MaskPair.setMasked line mask)
  | .isMasked line => ofPorts .masked (MaskPair.isMasked line)
  | .remap master slave => ofPorts (fun _ => .done) fun ports =>
    (MaskPair.remap master slave ports).map ((), ·)
  | .endOfInterrupt line => ofPorts (fun _ => .done) fun ports =>
    .ok ((), MaskPair.acknowledge line ports)
  | .acknowledge line => .controller fun c => (.ok .done, c.acknowledge line)

/-- The line whose mask an operation sets, and to what. -/
def mask? : MaskOperation → Option (Nat × Bool)
  | .enable line => some (line, false)
  | .disable line => some (line, true)
  | .set line mask => some (line, mask)
  | _ => none

/-- The answer to an operation while the lines are masked as given. -/
def answer (masks : Nat → Bool) : MaskOperation → InterruptAnswer η MaskAnswer
  | .enable line | .disable line => .result (routed line ())
  | .set line _ => .controller (.set (routed line ()))
  | .isMasked line => .controller (.masked (routed line (masks line)))
  | .remap .. | .endOfInterrupt _ | .acknowledge _ => .controller .done

end MaskOperation

/-- Whether an answer says that a mask was set. -/
def InterruptAnswer.masksSet : InterruptAnswer η MaskAnswer → Bool
  | .result (.ok ()) | .controller (.set (.ok ())) => true
  | _ => false

/-- What an operation with its answer set the mask of a line to, if it did. -/
def setsMask? (line : Nat) : MaskOperation × InterruptAnswer η MaskAnswer → Option Bool
  | (operation, answer) => match operation.mask? with
    | some (l, mask) => if l = line ∧ answer.masksSet then some mask else none
    | none => none

/-- The masks after operations with their answers: those set last, or else those found. -/
def masksAfter (found : Nat → Bool) (history : List (MaskOperation × InterruptAnswer η MaskAnswer))
    (line : Nat) : Bool :=
  latest (setsMask? line) (found line) history

namespace MaskOperation

theorem answer_congr {masks masks' : Nat → Bool}
    (same : ∀ line < routedLines, masks' line = masks line) (operation : MaskOperation) :
    (operation.answer masks' : InterruptAnswer η MaskAnswer) = operation.answer masks := by
  cases operation with
  | isMasked line =>
    by_cases h : line < routedLines
    · rw [answer, answer, same line h]
    · simp only [answer, routed, if_neg h]
  | _ => rfl

theorem masksSet_answer (masks : Nat → Bool) {operation : MaskOperation} {line : Nat} {mask : Bool}
    (asks : operation.mask? = some (line, mask)) (h : line < routedLines) :
    (operation.answer masks : InterruptAnswer η MaskAnswer).masksSet := by
  cases operation with
  | enable l | disable l | set l m =>
    obtain ⟨rfl, rfl⟩ := Prod.mk.inj (Option.some.inj asks)
    simp only [answer, routed, if_pos h]
    rfl
  | _ => cases asks

/-- After one operation a routed line is masked as the operation set it, if it set that line. -/
theorem masksAfter_singleton (masks : Nat → Bool) (operation : MaskOperation) {line : Nat}
    (h : line < routedLines) :
    masksAfter masks [(operation, (operation.answer masks : InterruptAnswer η MaskAnswer))] line =
      match operation.mask? with
      | some (l, mask) => if l = line then mask else masks line
      | none => masks line := by
  rw [masksAfter, latest_singleton, setsMask?]
  cases hmask : operation.mask? with
  | none => rfl
  | some asked =>
    obtain ⟨l, mask⟩ := asked
    dsimp only
    by_cases same : l = line
    · have hset := masksSet_answer (η := η) masks hmask (same ▸ h)
      rw [if_pos same, if_pos ⟨same, hset⟩]
      rfl
    · rw [if_neg same, if_neg fun both => same both.1]
      rfl

end MaskOperation

/-! ## The table over the pair -/

namespace InterruptTable

variable {table : InterruptTable PcController η}

theorem mask_unrouted {line : Nat} (h : routedLines ≤ line) (table : InterruptTable PcController η)
    (mask : Bool) (done : InterruptNote) : ∃ journal,
      table.mask line mask done = (.ok (.error (.outOfRange line)), { table with journal }) := by
  by_cases inside : line < interruptLines
  · exact mask_of_lt inside (PcController.setMasked_of_le h mask table.controller) done
  · rw [mask_of_le (Nat.not_lt.mp inside)]
    exact ⟨_, rfl⟩

theorem mask_pair (latches : table.controller.ports.Latches) (line : Nat) (mask : Bool)
    (done : InterruptNote) : ∃ ports journal, table.mask line mask done =
        (.ok (routed line ()),
          { table with controller := { table.controller with ports }, journal }) ∧
      ports.Latches ∧ ∀ other < routedLines, masked ports other =
        if line = other then mask else masked table.controller.ports other := by
  by_cases h : line < routedLines
  · obtain ⟨ports, hset, hports⟩ := MaskPair.setMasked_eq latches line mask
    have inside : line < interruptLines := Nat.lt_trans h (by decide)
    obtain ⟨journal, hmask⟩ := mask_of_lt inside (PcController.setMasked_of_ports hset) done
    exact ⟨ports, journal, hmask, hports⟩
  · obtain ⟨journal, hmask⟩ := mask_unrouted (Nat.not_lt.mp h) table mask done
    refine ⟨table.controller.ports, journal, ?_, latches, fun other h' => (if_neg ?_).symm⟩
    · rw [hmask, routed, if_neg h]
    · rintro rfl
      exact h h'

end InterruptTable

/-! ## Runs -/

namespace InterruptRun

open MaskOperation

variable {run : InterruptRun PcController η}

/-- The ports of the mask pair. -/
def ports (run : InterruptRun PcController η) : PortScript := run.table.controller.ports

/-- The run with the ports in another state. -/
def withPorts (run : InterruptRun PcController η) (ports : PortScript) :
    InterruptRun PcController η :=
  { run with table := { run.table with controller := { run.table.controller with ports } } }

theorem perform_ofPorts {β : Type} (answer : β → MaskAnswer)
    {act : PortScript → Except PortFault (β × PortScript)} {b : β} {ports : PortScript}
    (h : act run.ports = .ok (b, ports)) :
    run.perform (ofPorts answer act) = (.ok (.controller (answer b)), run.withPorts ports) := by
  have hact : act run.table.controller.ports = .ok (b, ports) := h
  simp only [ofPorts, perform, hact]
  rfl

theorem on_mask_pair (latches : run.ports.Latches) (line : Nat) (mask : Bool)
    (done : InterruptNote) : ∃ next : InterruptRun PcController η,
      run.on .result (run.table.mask line mask done) =
        (.ok (.result (routed line ()) : InterruptAnswer η MaskAnswer), next) ∧
      next.ports.Latches ∧ ∀ other < routedLines,
        masked next.ports other = if line = other then mask else masked run.ports other := by
  obtain ⟨ports, journal, hmask, hlatches, hmasks⟩ :=
    InterruptTable.mask_pair latches line mask done
  let next := { run.withPorts ports with table := { (run.withPorts ports).table with journal } }
  refine ⟨next, ?_, hlatches, hmasks⟩
  rw [hmask]
  rfl

/-- One operation is answered from the masks found and leaves those that it says. -/
theorem perform_asked (latches : run.ports.Latches) (operation : MaskOperation) :
    ∃ next, run.perform operation.asked = (.ok (operation.answer (masked run.ports)), next) ∧
      next.ports.Latches ∧
      ∀ line < routedLines, masked next.ports line = match operation.mask? with
        | some (l, mask) => if l = line then mask else masked run.ports line
        | none => masked run.ports line := by
  cases operation with
  | enable line => exact on_mask_pair latches line false (.enabled line)
  | disable line => exact on_mask_pair latches line true (.disabled line)
  | set line mask =>
    obtain ⟨ports, hset, hports⟩ := MaskPair.setMasked_eq latches line mask
    exact ⟨run.withPorts ports, perform_ofPorts .set hset, hports⟩
  | isMasked line =>
    exact ⟨run.withPorts run.ports, perform_ofPorts .masked (MaskPair.isMasked_eq latches line),
      latches, fun _ _ => rfl⟩
  | remap master slave =>
    obtain ⟨ports, hremap, hlatches, hmasks⟩ := MaskPair.remap_eq latches master slave
    refine ⟨run.withPorts ports, ?_, hlatches, fun line _ => congrFun hmasks line⟩
    rw [asked, perform_ofPorts (b := ())]
    · rfl
    · exact congrArg (Except.map ((), ·)) hremap
  | endOfInterrupt line =>
    obtain ⟨hlatches, hmasks⟩ := MaskPair.acknowledge_eq latches line
    refine ⟨run.withPorts (MaskPair.acknowledge line run.ports), ?_, hlatches,
      fun line _ => congrFun hmasks line⟩
    rw [asked, perform_ofPorts (b := ())]
    · rfl
    · rfl
  | acknowledge line =>
    obtain ⟨hlatches, hmasks⟩ := MaskPair.acknowledge_eq latches line
    exact ⟨_, rfl, hlatches, fun line _ => congrFun hmasks line⟩

theorem performAll_asked (latches : run.ports.Latches) (operations : List MaskOperation) :
    ∃ answers after, run.performAll (operations.map asked) = (.ok answers, after) ∧
      answers.length = operations.length ∧ after.ports.Latches ∧
      Along (fun before event =>
          event.2 = event.1.answer (masksAfter (masked run.ports) before))
        (operations.zip (answers.map Prod.fst)) ∧
      ∀ line < routedLines, masked after.ports line =
        masksAfter (masked run.ports) (operations.zip (answers.map Prod.fst)) line := by
  induction operations generalizing run with
  | nil => exact ⟨[], run, rfl, rfl, latches, along_nil, fun _ _ => rfl⟩
  | cons operation rest ih =>
    obtain ⟨next, hperform, hlatches, hmasks⟩ := perform_asked latches operation
    obtain ⟨answers, after, hrest, hlength, hafter, halong, hlast⟩ := ih hlatches
    -- what the first operation leaves is what the others find
    let event := (operation, (operation.answer (masked run.ports) : InterruptAnswer η MaskAnswer))
    have hnext : ∀ line < routedLines,
        masked next.ports line = masksAfter (masked run.ports) [event] line := fun line h => by
      rw [hmasks line h, masksAfter_singleton (masked run.ports) operation h]
    have hcons : ∀ (history : List _), ∀ line < routedLines,
        masksAfter (masked run.ports) (event :: history) line =
          masksAfter (masked next.ports) history line := fun history line h => by
      rw [masksAfter, latest_cons, masksAfter, hnext line h]
      rfl
    refine ⟨(event.2, next.enabled) :: answers, after, ?_, congrArg (· + 1) hlength, hafter, ?_, ?_⟩
    · simp only [List.map_cons, performAll_cons, hperform, hrest, event]
    · refine along_cons rfl (halong.mono fun before event h => h.trans ?_)
      exact (answer_congr (hcons before) event.1).symm
    · intro line h
      exact (hlast line h).trans (hcons _ line h).symm

/-- **The masks of a PC are sixteen flags.** Over ports that latch, whatever was written to them
before, every run of operations on the masks completes. A query of a routed line in it is answered
with the value that the latest operation set successfully for that line, and without one with the
bit of the line in the last byte written to its mask port before the run, which is set if there was
none; so it would be after the run. Hence no other operation matters to a line, be it on another
line or on the whole pair. A line that is not routed is out of range, and nothing is read or written
for it: the pair leaves any ports as they are, strict ones included, and the table leaves its
controller alone. -/
theorem masks_set_last (run : InterruptRun PcController η) (latches : run.ports.Latches)
    (operations : List MaskOperation) :
    (∃ answers after, run.performAll (operations.map asked) = (.ok answers, after) ∧
      answers.length = operations.length ∧
      let found := masked run.ports
      let history := operations.zip (answers.map Prod.fst)
      Along (fun before event => event.2 = event.1.answer (masksAfter found before)) history ∧
      ∀ line, MaskPair.isMasked line after.ports =
        .ok (routed line (masksAfter found history line), after.ports)) ∧
    ∀ line, routedLines ≤ line →
      (∀ mask ports, MaskPair.setMasked line mask ports = .ok (.error (.outOfRange line), ports)) ∧
      (∀ ports, MaskPair.isMasked line ports = .ok (.error (.outOfRange line), ports)) ∧
      ∀ table : InterruptTable PcController η,
        (∃ journal,
          table.enable line = (.ok (.error (.outOfRange line)), { table with journal })) ∧
        ∃ journal,
          table.disable line = (.ok (.error (.outOfRange line)), { table with journal }) := by
  constructor
  · obtain ⟨answers, after, hperformed, hlength, hlatches, halong, hmasks⟩ :=
      performAll_asked latches operations
    refine ⟨answers, after, hperformed, hlength, halong, fun line => ?_⟩
    rw [MaskPair.isMasked_eq hlatches]
    by_cases h : line < routedLines
    · rw [hmasks line h]
    · simp only [routed, if_neg h]
  · exact fun line h => ⟨MaskPair.setMasked_of_le h, MaskPair.isMasked_of_le h, fun table =>
      ⟨InterruptTable.mask_unrouted h table _ _, InterruptTable.mask_unrouted h table _ _⟩⟩

/-- On a pair whose master had line 2 unmasked, lines of the slave are unmasked and masked around
the pair being programmed anew, and a line is tried that is not routed. -/
theorem masks_set_last_remapped :
    let ports : PortScript := { latching := true, latestWrites := [(0x21, 0xFB)] }
    let run : InterruptRun PcController Nat :=
      { table := .create { ports, flags := .create true } .empty }
    let operations : List MaskOperation :=
      [.enable 10, .set 12 false, .remap 32 40, .isMasked 2, .disable 10, .acknowledge 10,
        .enable 16, .isMasked 12]
    ∃ answers after, run.performAll (operations.map asked) = (.ok answers, after) ∧
      MaskPair.isMasked 2 after.ports = .ok (.ok false, after.ports) ∧
      MaskPair.isMasked 10 after.ports = .ok (.ok true, after.ports) ∧
      MaskPair.isMasked 12 after.ports = .ok (.ok false, after.ports) ∧
      MaskPair.isMasked 16 after.ports = .ok (.error (.outOfRange 16), after.ports) := by
  intro ports run operations
  obtain ⟨⟨answers, after, hperformed, -, -, hmasks⟩, -⟩ :=
    masks_set_last run ⟨rfl, rfl⟩ operations
  have hanswers : answers = (run.performAll (operations.map asked)).1.toOption.getD [] := by
    rw [hperformed]
    rfl
  have hset : ∀ line ∈ [2, 10, 12], masksAfter (masked run.ports)
      (operations.zip (answers.map Prod.fst)) line = decide (line = 10) := by
    rw [hanswers]
    decide +kernel
  refine ⟨answers, after, hperformed, ?_, ?_, ?_, hmasks 16⟩
  · rw [hmasks, hset 2 (by decide)]
    rfl
  · rw [hmasks, hset 10 (by decide)]
    rfl
  · rw [hmasks, hset 12 (by decide)]
    rfl

end InterruptRun

end Firmware
