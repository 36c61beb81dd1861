/-
  Firmware: scripted ports are a queue in front of a latch. A run is told by its steps alone: what
  was prepared, what reads were answered from that, and what was written since the latest clearing.
  One step keeps the ports in accord with the steps so far (`Reached.step`), so a run does
  (`run_reached`), whichever way the script is kept: `script_before_latch`.
-/
import Firmware.Proofs.Events
import Firmware.Proofs.Ports
import Firmware.Proofs.Ports.Tape
import Mathlib.Data.List.DropRight

namespace Firmware

/-! ## What steps tell -/

namespace PortStep

/-- The reads that a step prepares. -/
def prepared (step : PortStep) : List PortByte :=
  match step.operation with
  | .prepare reads => reads
  | _ => []

/-- The port and the byte of a read that was made while prepared reads were left. -/
def scripted? (step : PortStep) : Option PortByte :=
  match step.operation with
  | .input port => if 0 < step.left then step.byte?.map fun byte => (port, byte) else none
  | _ => none

/-- The byte that a step writes, and the port it goes to. -/
def written? (step : PortStep) : Option PortByte :=
  match step.operation with
  | .output port value => some (port, value)
  | _ => none

end PortStep

/-- All reads ever prepared. -/
def preparedReads (steps : List PortStep) : List PortByte := steps.flatMap PortStep.prepared

/-- The reads made while prepared ones were left, and what they answered. -/
def scriptedReads (steps : List PortStep) : List PortByte := steps.filterMap PortStep.scripted?

/-- What was written since the latest clearing, or ever if there was none. -/
def standingWrites (steps : List PortStep) : List PortByte :=
  (steps.rtakeWhile fun step => step.operation ≠ .clearWrites).filterMap PortStep.written?

/-- What a write tells about a port. -/
def byteOn? (port : UInt16) (write : PortByte) : Option UInt8 :=
  if port = write.1 then some write.2 else none

/-- How a step follows those before it. A read is answered by the first prepared one that is not
used up, which must be for its port. With none left, it is answered by the latch. -/
structure PortStep.Follows (latching : Bool) (before : List PortStep) (step : PortStep) :
    Prop where
  counted : (scriptedReads before).length + step.left = (preparedReads before).length
  answered : ∀ port, step.operation = .input port → ∃ byte, step.byte? = some byte ∧
    (0 < step.left → (preparedReads before)[(scriptedReads before).length]? = some (port, byte)) ∧
    (step.left = 0 → latching = true ∧
      byte = latest (byteOn? port) PortScript.floating (standingWrites before))

section

variable (steps : List PortStep) (step : PortStep)

theorem preparedReads_concat :
    preparedReads (steps ++ [step]) = preparedReads steps ++ step.prepared := by
  unfold preparedReads
  rw [List.flatMap_append, List.flatMap_singleton]

theorem scriptedReads_concat :
    scriptedReads (steps ++ [step]) = scriptedReads steps ++ step.scripted?.toList := by
  unfold scriptedReads
  rw [List.filterMap_append]
  cases h : step.scripted? <;> simp [h]

theorem standingWrites_concat :
    standingWrites (steps ++ [step]) =
      if step.operation = .clearWrites then []
      else standingWrites steps ++ step.written?.toList := by
  unfold standingWrites
  rw [List.rtakeWhile_concat]
  by_cases hclear : step.operation = .clearWrites
  · simp [hclear]
  · rw [if_pos (by simpa using hclear), if_neg hclear, List.filterMap_append]
    cases h : step.written? <;> simp [h]

end

/-! ## Ports of any kind -/

namespace ScriptedPorts

variable {π ε : Type} {device : ScriptedPorts π ε}

theorem perform_input_ok {ports after : π} {port : UInt16} {byte? : Option UInt8}
    (h : device.perform ports (.input port) = .ok (byte?, after)) :
    ∃ byte, byte? = some byte ∧ device.input ports port = .ok (byte, after) := by
  change (device.input ports port).map _ = _ at h
  cases hinput : device.input ports port with
  | error fault => rw [hinput] at h; cases h
  | ok answer =>
    rw [hinput] at h
    cases h
    exact ⟨answer.1, rfl, rfl⟩

theorem perform_input_error {ports : π} {port : UInt16} {fault : ε}
    (h : device.perform ports (.input port) = .error fault) :
    device.input ports port = .error fault := by
  change (device.input ports port).map _ = _ at h
  cases hinput : device.input ports port with
  | error other => rw [hinput] at h; cases h; rfl
  | ok answer => rw [hinput] at h; cases h

/-- Only a read meets a fault. -/
theorem perform_error {ports : π} {operation : PortOperation} {fault : ε}
    (h : device.perform ports operation = .error fault) :
    ∃ port, operation = .input port ∧ device.input ports port = .error fault := by
  cases operation with
  | input port => exact ⟨port, rfl, perform_input_error h⟩
  | prepare reads => cases h
  | output port value => cases h
  | clearWrites => cases h

/-- What every step keeps of the steps so far and the ports, a run keeps. -/
theorem run_keeps {I : List PortStep → π → Prop} {P : List PortStep → PortStep → Prop}
    (keeps : ∀ steps ports operation byte? after, I steps ports →
      device.perform ports operation = .ok (byte?, after) →
      let step : PortStep := { operation, left := device.remaining ports, byte? }
      P steps step ∧ I (steps ++ [step]) after)
    (operations : List PortOperation) {steps : List PortStep} {ports : π} (h : I steps ports) :
    let run := device.run ports operations
    Along (fun before => P (steps ++ before)) run.steps ∧ I (steps ++ run.steps) run.ports := by
  -- on the operations still to come, for any steps so far and the ports they have left
  induction operations generalizing steps ports with
  | nil => exact ⟨along_nil, (List.append_nil steps).symm ▸ h⟩
  | cons operation rest ih =>
    unfold run
    cases hperform : device.perform ports operation with
    | error fault => exact ⟨along_nil, (List.append_nil steps).symm ▸ h⟩
    | ok answer =>
      obtain ⟨byte?, after⟩ := answer
      obtain ⟨hstep, hafter⟩ := keeps steps ports operation byte? after h hperform
      obtain ⟨halong, hreached⟩ := ih hafter
      simp only [List.append_assoc, List.singleton_append] at halong hreached
      exact ⟨along_cons ((List.append_nil steps).symm ▸ hstep) halong, hreached⟩

/-- A run gets to the last operation, or to the first read that meets a fault. -/
theorem run_ends (device : ScriptedPorts π ε) (ports : π) (operations : List PortOperation) :
    let run := device.run ports operations
    (run.fault? = none ∧ run.steps.map PortStep.operation = operations) ∨
    ∃ port later fault,
      operations = run.steps.map PortStep.operation ++ .input port :: later ∧
      device.input run.ports port = .error fault ∧ run.fault? = some fault := by
  induction operations generalizing ports with
  | nil => exact .inl ⟨rfl, rfl⟩
  | cons operation rest ih =>
    unfold run
    cases hperform : device.perform ports operation with
    | error fault =>
      obtain ⟨port, rfl, hinput⟩ := perform_error hperform
      exact .inr ⟨port, rest, fault, rfl, hinput, rfl⟩
    | ok answer =>
      rcases ih answer.2 with ⟨hnone, hsteps⟩ | ⟨port, later, fault, hrest, hfault, hsome⟩
      · exact .inl ⟨hnone, congrArg _ hsteps⟩
      · exact .inr ⟨port, later, fault, congrArg _ hrest, hfault, hsome⟩

end ScriptedPorts

namespace PortScript

variable {ports after : PortScript}

/-! ## One read -/

/-- The latch holds what the latest write to the port says. -/
theorem latched_eq_latest (ports : PortScript) (port : UInt16) :
    ports.latched port = latest (byteOn? port) floating ports.writes := by
  obtain ⟨pending, used, latestWrites, latching⟩ := ports
  induction latestWrites with
  | nil => rfl
  | cons write earlier ih =>
    let before : PortScript := ⟨pending, used, earlier, latching⟩
    have hwrites : (before.output write.1 write.2).writes = before.writes ++ [write] :=
      List.reverse_cons
    change (before.output write.1 write.2).latched port =
      latest _ _ (before.output write.1 write.2).writes
    rw [latched_output, hwrites, latest_append, latest_singleton, ← ih]
    unfold byteOn?
    split <;> rfl

theorem input_ok {port : UInt16} {byte : UInt8} (h : ports.input port = .ok (byte, after)) :
    (∃ later, ports.pending = (port, byte) :: later ∧
      after = { ports with pending := later, used := ports.used + 1 }) ∨
    (ports.pending = [] ∧ ports.latching = true ∧ byte = ports.latched port ∧ after = ports) := by
  unfold input at h
  split at h
  · next expected value later hpending =>
    split at h
    · next hport =>
      cases h
      exact .inl ⟨later, hport ▸ hpending, rfl⟩
    · cases h
  · next hpending =>
    split at h
    · next hlatching =>
      cases h
      exact .inr ⟨hpending, hlatching, rfl, rfl⟩
    · cases h

theorem input_error {port : UInt16} {fault : PortFault} (h : ports.input port = .error fault) :
    (∃ expected value later, ports.pending = (expected, value) :: later ∧ port ≠ expected ∧
      fault = .mismatch ports.used expected port) ∨
    (ports.pending = [] ∧ ports.latching = false ∧ fault = .unscripted port ports.used) := by
  unfold input at h
  split at h
  · next expected value later hpending =>
    split at h
    · cases h
    · next hport =>
      cases h
      exact .inl ⟨expected, value, later, hpending, hport, rfl⟩
  · next hpending =>
    split at h
    · cases h
    · next hlatching =>
      cases h
      exact .inr ⟨hpending, Bool.eq_false_iff.mpr hlatching, rfl⟩

/-! ## One step -/

/-- The ports are as the steps so far have left them. -/
structure Reached (latching : Bool) (steps : List PortStep) (ports : PortScript) : Prop where
  reads : preparedReads steps = scriptedReads steps ++ ports.pending
  used : ports.used = (scriptedReads steps).length
  writes : ports.writes = standingWrites steps
  latching : ports.latching = latching

variable {latching : Bool} {steps : List PortStep}

theorem reached_nil (latching : Bool) : Reached latching [] { latching } :=
  ⟨rfl, rfl, rfl, rfl⟩

theorem Reached.counted (reached : Reached latching steps ports) :
    (scriptedReads steps).length + ports.remaining = (preparedReads steps).length := by
  rw [reached.reads, List.length_append]
  rfl

/-- The next prepared read is the first pending one. -/
theorem Reached.next (reached : Reached latching steps ports) :
    (preparedReads steps)[(scriptedReads steps).length]? = ports.pending.head? := by
  rw [reached.reads, List.getElem?_append_right (le_refl _), Nat.sub_self, List.head?_eq_getElem?]

/-- What a step must do to ports that are as the steps before have left them. -/
theorem Reached.concat (reached : Reached latching steps ports) {step : PortStep}
    (hreads : ports.pending ++ step.prepared = step.scripted?.toList ++ after.pending)
    (hused : after.used = ports.used + step.scripted?.toList.length)
    (hwrites : after.writes =
      if step.operation = .clearWrites then [] else ports.writes ++ step.written?.toList)
    (hlatching : after.latching = ports.latching) :
    Reached latching (steps ++ [step]) after where
  reads := by
    rw [preparedReads_concat, scriptedReads_concat, reached.reads, List.append_assoc, hreads,
      List.append_assoc]
  used := by rw [scriptedReads_concat, List.length_append, hused, reached.used]
  writes := by rw [standingWrites_concat, hwrites, reached.writes]
  latching := by rw [hlatching, reached.latching]

/-- A read is answered by the first pending one, if that is for its port, or by the latch. -/
theorem Reached.step_input (reached : Reached latching steps ports) {port : UInt16}
    {byte : UInt8} (h : ports.input port = .ok (byte, after)) :
    let step : PortStep := { operation := .input port, left := ports.remaining, byte? := byte }
    step.Follows latching steps ∧ Reached latching (steps ++ [step]) after := by
  intro step
  rcases input_ok h with ⟨later, hpending, rfl⟩ | ⟨hpending, hlatches, hbyte, hafter⟩
  · -- the first pending read is used up, and it is the next prepared one
    have hleft : 0 < ports.remaining := List.length_pos_of_mem (hpending ▸ List.mem_cons_self)
    have hscripted : step.scripted? = some (port, byte) := if_pos hleft
    have hnext : (preparedReads steps)[(scriptedReads steps).length]? = some (port, byte) := by
      rw [reached.next, hpending]
      rfl
    refine ⟨⟨reached.counted, ?_⟩, reached.concat ?_ ?_ ?_ rfl⟩
    · rintro _ ⟨⟩
      exact ⟨byte, rfl, fun _ => hnext, fun hnone => absurd hnone hleft.ne'⟩
    · rw [hscripted, hpending]
      exact List.append_nil _
    · rw [hscripted]
      rfl
    · exact (List.append_nil _).symm
  · -- nothing is pending, so the read leaves everything as it was
    have hleft : ports.remaining = 0 := congrArg List.length hpending
    have hscripted : step.scripted? = none := if_neg hleft.not_gt
    rw [hafter]
    refine ⟨⟨reached.counted, ?_⟩, reached.concat ?_ ?_ ?_ rfl⟩
    · rintro _ ⟨⟩
      refine ⟨byte, rfl, fun hsome => absurd hleft hsome.ne', fun _ => ?_⟩
      exact ⟨reached.latching ▸ hlatches, by rw [hbyte, latched_eq_latest, reached.writes]⟩
    · rw [hscripted]
      exact List.append_nil _
    · rw [hscripted]
      rfl
    · exact (List.append_nil _).symm

/-- An operation that was carried out follows the steps before it, and is then one of them. -/
theorem Reached.step (reached : Reached latching steps ports) {operation : PortOperation}
    {byte? : Option UInt8} (h : device.perform ports operation = .ok (byte?, after)) :
    let step : PortStep := { operation, left := device.remaining ports, byte? }
    step.Follows latching steps ∧ Reached latching (steps ++ [step]) after := by
  cases operation with
  | prepare reads =>
    cases h
    refine ⟨⟨reached.counted, nofun⟩, reached.concat rfl rfl ?_ rfl⟩
    exact (List.append_nil _).symm
  | input port =>
    obtain ⟨byte, rfl, hinput⟩ := ScriptedPorts.perform_input_ok h
    exact reached.step_input hinput
  | output port value =>
    cases h
    refine ⟨⟨reached.counted, nofun⟩, reached.concat ?_ rfl ?_ rfl⟩
    · exact List.append_nil _
    · exact List.reverse_cons
  | clearWrites =>
    cases h
    refine ⟨⟨reached.counted, nofun⟩, reached.concat ?_ rfl rfl rfl⟩
    exact List.append_nil _

/-- A read that meets a fault is for another port than the next prepared read, or there is no such
read and no latch. -/
theorem Reached.refused (reached : Reached latching steps ports) {port : UInt16}
    {fault : PortFault} (h : ports.input port = .error fault) :
    (∃ expected value,
      (preparedReads steps)[(scriptedReads steps).length]? = some (expected, value) ∧
      port ≠ expected ∧ fault = .mismatch (scriptedReads steps).length expected port) ∨
    ((scriptedReads steps).length = (preparedReads steps).length ∧ latching = false ∧
      fault = .unscripted port (preparedReads steps).length) := by
  rcases input_error h with
    ⟨expected, value, later, hpending, hport, hfault⟩ | ⟨hpending, hlatching, hfault⟩
  · left
    refine ⟨expected, value, ?_, hport, reached.used ▸ hfault⟩
    rw [reached.next, hpending]
    rfl
  · right
    have hall : (scriptedReads steps).length = (preparedReads steps).length := by
      rw [reached.reads, hpending, List.append_nil]
    refine ⟨hall, reached.latching ▸ hlatching, ?_⟩
    rw [hfault, reached.used, hall]

/-! ## Runs -/

theorem run_reached (latching : Bool) (operations : List PortOperation) :
    let run := device.run { latching } operations
    Along (PortStep.Follows latching) run.steps ∧ Reached latching run.steps run.ports :=
  ScriptedPorts.run_keeps (fun _ _ _ _ _ reached h => reached.step h) operations
    (reached_nil latching)

end PortScript

namespace PortTape

theorem script_input {tape after : PortTape} {port : UInt16} {byte : UInt8}
    (h : tape.input port = .ok (byte, after)) : after.script = tape.script := by
  unfold input at h
  split at h
  · dsimp only at h
    split at h
    · cases h; rfl
    · cases h
  · split at h
    · cases h; rfl
    · cases h

/-- Nothing is ever taken off a tape. -/
theorem script_perform {tape after : PortTape} {operation : PortOperation} {byte? : Option UInt8}
    (h : device.perform tape operation = .ok (byte?, after)) :
    after.script.toList =
      tape.script.toList ++ PortStep.prepared ⟨operation, device.remaining tape, byte?⟩ := by
  cases operation with
  | prepare reads =>
    cases h
    exact Array.toList_appendList
  | input port =>
    obtain ⟨byte, rfl, hinput⟩ := ScriptedPorts.perform_input_ok h
    rw [script_input hinput]
    exact (List.append_nil _).symm
  | output port value =>
    cases h
    exact (List.append_nil _).symm
  | clearWrites =>
    cases h
    exact (List.append_nil _).symm

theorem script_run (latching : Bool) (operations : List PortOperation) :
    let run := device.run { latching } operations
    run.ports.script.toList = preparedReads run.steps := by
  have hfresh : ({ latching } : PortTape).script.toList = preparedReads [] := rfl
  refine (ScriptedPorts.run_keeps (P := fun _ _ => True)
    (I := fun steps (tape : PortTape) => tape.script.toList = preparedReads steps)
    ?_ operations hfresh).2
  intro steps tape operation byte? after hscript h step
  rw [preparedReads_concat, ← hscript]
  exact ⟨trivial, script_perform h⟩

end PortTape

/-- **Scripted ports are a queue in front of a latch.** In every run up to its first fault, the
reads made while prepared ones are left are answered by these, in the order in which they were
prepared, each once and by a read of its own port, and all that is not used up is still pending. How
many are left is always how many were prepared less how many were used. A read with none left is
answered by the byte last written to its port since the latest clearing, if the ports latch, and
what is kept of the writes is those since then. Only a read ends a run early: one for another port
than the next prepared read, or one with none left that meets no latch. On a tape the run is the
same, step for step and to the text of the fault, and the position stays within the script. -/
theorem script_before_latch (latching : Bool) (operations : List PortOperation) :
    let run := PortScript.device.run { latching } operations
    let onTape := PortTape.device.run { latching } operations
    let prepared := preparedReads run.steps
    let used := (scriptedReads run.steps).length
    Along (PortStep.Follows latching) run.steps ∧
    prepared = scriptedReads run.steps ++ run.ports.pending ∧
    used + run.ports.remaining = prepared.length ∧
    run.ports.writes = standingWrites run.steps ∧
    ((run.fault? = none ∧ run.steps.map PortStep.operation = operations) ∨
      ∃ port later fault, operations = run.steps.map PortStep.operation ++ .input port :: later ∧
        run.fault? = some fault ∧
        ((∃ expected value, prepared[used]? = some (expected, value) ∧ port ≠ expected ∧
            fault = .mismatch used expected port) ∨
          (used = prepared.length ∧ latching = false ∧
            fault = .unscripted port prepared.length))) ∧
    onTape.steps = run.steps ∧ onTape.fault? = run.fault?.map PortFault.message ∧
    onTape.ports.script.toList = prepared ∧ onTape.ports.position = used ∧
    onTape.ports.position ≤ onTape.ports.script.size ∧
    onTape.ports.remaining = run.ports.remaining ∧
    onTape.ports.writes.toList = run.ports.writes := by
  intro run onTape prepared used
  obtain ⟨hfollows, hreached⟩ :
      Along (PortStep.Follows latching) run.steps ∧
        PortScript.Reached latching run.steps run.ports :=
    PortScript.run_reached latching operations
  obtain ⟨hfits, hsteps, hqueue, hfault⟩ :
      onTape.ports.Fits ∧ onTape.steps = run.steps ∧ onTape.ports.queue = run.ports ∧
        onTape.fault? = run.fault?.map PortFault.message :=
    PortTape.run_queue (PortTape.fits_fresh latching) operations
  have hscript : onTape.ports.script.toList = prepared := by
    rw [PortTape.script_run latching operations]
    exact congrArg preparedReads hsteps
  have hposition : onTape.ports.position = used := by
    have hused : run.ports.used = used := hreached.used
    rw [← hused, ← hqueue]
    rfl
  refine ⟨hfollows, hreached.reads, hreached.counted, hreached.writes, ?_, hsteps, hfault,
    hscript, hposition, hfits, ?_, ?_⟩
  · rcases ScriptedPorts.run_ends PortScript.device { latching } operations with
      hdone | ⟨port, later, fault, hrest, hinput, hsome⟩
    · exact .inl hdone
    · exact .inr ⟨port, later, fault, hrest, hsome, hreached.refused hinput⟩
  · rw [← PortTape.remaining_queue, hqueue]
  · rw [← PortTape.writes_queue, hqueue]

/-- A read that is prepared after the latch has answered comes before the latch again. -/
example :
    (PortScript.device.run { latching := true }
      [.output 0x21 0x01, .input 0x21, .prepare [(0x21, 0x80)], .input 0x21, .input 0x21]).steps.map
      PortStep.byte? = [none, some 0x01, none, some 0x80, some 0x01] := rfl

end Firmware
