/-
  Firmware: a tape is a queue. What lies behind the position of a tape is what a queue would still
  hold, as long as the position does not lie beyond the script, which no operation makes it do. So
  the two kinds of ports answer every run alike, fault for fault: `run_queue`.
-/
import Firmware.Ports.Tape
import Mathlib.Data.List.TakeDrop

namespace Firmware.PortTape

variable {tape : PortTape}

/-- The position does not lie beyond the script. -/
def Fits (tape : PortTape) : Prop := tape.position ≤ tape.script.size

theorem fits_fresh (latching : Bool) : Fits { latching } := Nat.le_refl 0

/-- The same ports with a queue of the reads that are left. -/
def queue (tape : PortTape) : PortScript where
  pending := tape.script.toList.drop tape.position
  used := tape.position
  latestWrites := tape.writes.toList.reverse
  latching := tape.latching

theorem remaining_queue (tape : PortTape) : tape.queue.remaining = tape.remaining := by
  unfold PortScript.remaining remaining queue
  rw [List.length_drop, Array.length_toList]

theorem writes_queue (tape : PortTape) : tape.queue.writes = tape.writes.toList :=
  List.reverse_reverse _

/-- The last byte written is found by going back from the latest one. -/
theorem lastWrite?_queue (tape : PortTape) (port : UInt16) :
    tape.queue.lastWrite? port = tape.lastWrite? port := by
  unfold PortScript.lastWrite? lastWrite? queue
  generalize tape.writes.toList.reverse = writes
  induction writes with
  | nil => rfl
  | cons byte rest ih =>
    obtain ⟨written, value⟩ := byte
    by_cases h : written = port
    · simp [h]
    · have hbeq : (port == written) = false := beq_eq_false_iff_ne.mpr fun same => h same.symm
      rw [List.lookup_cons, hbeq, List.find?_cons_of_neg (by simpa using h)]
      exact ih

/-! ## One operation -/

theorem prepare_fits (fits : tape.Fits) (reads : List PortByte) : (tape.prepare reads).Fits := by
  have hsize : (tape.prepare reads).script.size = tape.script.size + reads.length := by
    rw [← Array.length_toList, ← Array.length_toList, ← List.length_append]
    exact congrArg List.length Array.toList_appendList
  unfold Fits at *
  rw [hsize]
  exact Nat.le_add_right_of_le fits

theorem prepare_queue (fits : tape.Fits) (reads : List PortByte) :
    (tape.prepare reads).queue = tape.queue.prepare reads := by
  unfold queue PortScript.prepare prepare
  simp [List.drop_append_of_le_length fits]

theorem output_queue (tape : PortTape) (port : UInt16) (value : UInt8) :
    (tape.output port value).queue = tape.queue.output port value := by
  unfold queue PortScript.output output
  simp

theorem clearWrites_queue (tape : PortTape) : tape.clearWrites.queue = tape.queue.clearWrites :=
  rfl

theorem pending_of_lt (h : tape.position < tape.script.size) :
    tape.queue.pending =
      tape.script[tape.position] :: tape.script.toList.drop (tape.position + 1) :=
  List.drop_eq_getElem_cons h

theorem pending_of_le (h : tape.script.size ≤ tape.position) : tape.queue.pending = [] :=
  List.drop_eq_nil_of_le h

/-- A read is answered from the same byte of the script, from the same latch, or not at all. -/
theorem input_queue (fits : tape.Fits) (port : UInt16) :
    (∃ byte after, tape.input port = .ok (byte, after) ∧ after.Fits ∧
      tape.queue.input port = .ok (byte, after.queue)) ∨
    ∃ fault : PortFault, tape.input port = .error fault.message ∧
      tape.queue.input port = .error fault := by
  unfold input PortScript.input
  by_cases h : tape.position < tape.script.size
  · rw [dif_pos h, pending_of_lt h]
    by_cases hport : port = tape.script[tape.position].1
    · left
      simp only [if_pos hport]
      exact ⟨_, { tape with position := tape.position + 1 }, rfl, h, rfl⟩
    · right
      simp only [if_neg hport]
      exact ⟨.mismatch tape.position _ port, rfl, rfl⟩
  · have hend : tape.position = tape.script.size := Nat.le_antisymm fits (Nat.not_lt.mp h)
    rw [dif_neg h, pending_of_le (Nat.not_lt.mp h)]
    cases hlatching : tape.latching with
    | true =>
      left
      have hqueue : tape.queue.latching = true := hlatching
      simp only [hqueue, if_true, lastWrite?_queue]
      exact ⟨_, tape, rfl, fits, rfl⟩
    | false =>
      right
      have hqueue : tape.queue.latching = false := hlatching
      have hused : tape.queue.used = tape.script.size := hend
      simp only [hqueue, Bool.false_eq_true, if_false, hused, hend]
      exact ⟨.unscripted port tape.script.size, rfl, rfl⟩

theorem perform_queue (fits : tape.Fits) (operation : PortOperation) :
    (∃ byte? after, device.perform tape operation = .ok (byte?, after) ∧ after.Fits ∧
      PortScript.device.perform tape.queue operation = .ok (byte?, after.queue)) ∨
    ∃ fault : PortFault, device.perform tape operation = .error fault.message ∧
      PortScript.device.perform tape.queue operation = .error fault := by
  cases operation with
  | prepare reads =>
    left
    refine ⟨none, tape.prepare reads, rfl, prepare_fits fits reads, ?_⟩
    rw [prepare_queue fits]
    rfl
  | input port =>
    rcases input_queue fits port with ⟨byte, after, htape, hfits, hqueue⟩ | ⟨fault, htape, hqueue⟩
    · left
      exact ⟨some byte, after, congrArg (Except.map _) htape, hfits, congrArg (Except.map _) hqueue⟩
    · right
      exact ⟨fault, congrArg (Except.map _) htape, congrArg (Except.map _) hqueue⟩
  | output port value =>
    left
    refine ⟨none, tape.output port value, rfl, fits, ?_⟩
    rw [output_queue]
    rfl
  | clearWrites =>
    left
    refine ⟨none, tape.clearWrites, rfl, fits, ?_⟩
    rw [clearWrites_queue]
    rfl

/-! ## Runs -/

/-- A tape and its queue go through a run alike. -/
theorem run_queue (fits : tape.Fits) (operations : List PortOperation) :
    let onTape := device.run tape operations
    let onQueue := PortScript.device.run tape.queue operations
    onTape.ports.Fits ∧ onTape.steps = onQueue.steps ∧ onTape.ports.queue = onQueue.ports ∧
      onTape.fault? = onQueue.fault?.map PortFault.message := by
  induction operations generalizing tape with
  | nil => exact ⟨fits, rfl, rfl, rfl⟩
  | cons operation rest ih =>
    unfold ScriptedPorts.run
    rcases perform_queue fits operation with
      ⟨byte?, after, htape, hafter, hqueue⟩ | ⟨fault, htape, hqueue⟩
    · obtain ⟨hfits, hsteps, hports, hfault⟩ := ih hafter
      have hleft : device.remaining tape = PortScript.device.remaining tape.queue :=
        (remaining_queue tape).symm
      simp only [htape, hqueue, hleft]
      exact ⟨hfits, congrArg _ hsteps, hports, hfault⟩
    · rw [htape, hqueue]
      exact ⟨fits, rfl, rfl, rfl⟩

end Firmware.PortTape
