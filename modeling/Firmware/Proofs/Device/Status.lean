/-
  Firmware: the status of a device over a run. The status after an operation follows from the
  status before it, the operation and its answer, and so does what the driver and the registers
  are asked. `status_machine` says this of any driver and of any run: calls are refused while
  Busy and made once otherwise, only a store leaves Busy behind, and Error stays until a recovery.
-/
import Firmware.Proofs.Device.Watched

namespace Firmware

/-- An operation and what it was answered. -/
abbrev Answered := DeviceOperation × DeviceAnswer

/-- The status that an operation stores beside the handle. -/
def DeviceOperation.stored? : DeviceOperation → Option DeviceStatus
  | .storeStatus status => some status
  | _ => none

namespace Answered

/-- Whether this is a success of a call that makes the device idle. -/
def recovered (step : Answered) : Bool :=
  step.1.call?.any DriverCall.recovers && step.2.outcome.isOk

/-- The status after an operation, from the status before it. -/
def statusAfter (step : Answered) (status : DeviceStatus) : DeviceStatus :=
  match step.1.call? with
  | some call => if status = .busy then .busy else call.settled status step.2.outcome
  | none => step.1.stored?.getD status

/-- What an operation asks of the driver and of the registers, from the status before it. -/
def events (step : Answered) (base : UInt64) (status : DeviceStatus) : List DeviceEvent :=
  match step.1.call?, step.1 with
  | some call, _ => if status = .busy then [] else [.called call (call.seen status)]
  | none, .setIrq line =>
    if step.2.outcome.isOk then [.accessed (.write (base + Device.vectorOffset) line)] else []
  | none, _ => []

end Answered

namespace DeviceStatus

/-- The status after a run, from the status before it. -/
def afterAll (status : DeviceStatus) (history : List Answered) : DeviceStatus :=
  history.foldl (fun status step => step.statusAfter status) status

/-- What a run asks of the driver and of the registers, from the status before it. -/
def trace (base : UInt64) : DeviceStatus → List Answered → List DeviceEvent
  | _, [] => []
  | status, step :: rest => step.events base status ++ trace base (step.statusAfter status) rest

end DeviceStatus

/-! ## Busy and Error along a history -/

theorem DeviceOperation.stored?_eq_none {operation : DeviceOperation} {call : DriverCall}
    (asks : operation.call? = some call) : operation.stored? = none := by
  cases operation with
  | storeStatus status => cases asks
  | _ => rfl

theorem DriverCall.settled_ne_busy {status : DeviceStatus} (free : status ≠ .busy)
    (outcome : Except Error Unit) (call : DriverCall) : call.settled status outcome ≠ .busy := by
  unfold settled
  split
  · exact free
  · split
    · split <;> first | decide | exact free
    · exact free
    · decide

/-- Of all operations only a store leaves Busy behind or takes it away. -/
theorem Answered.statusAfter_eq_busy_iff (step : Answered) (status : DeviceStatus) :
    step.statusAfter status = .busy ↔ step.1.stored?.getD status = .busy := by
  unfold statusAfter
  cases asks : step.1.call? with
  | none => rfl
  | some call =>
    rw [DeviceOperation.stored?_eq_none asks]
    by_cases busy : status = .busy
    · simp [busy]
    · simp [busy, DriverCall.settled_ne_busy busy]

theorem Answered.statusAfter_error {step : Answered} (silent : step.1.stored? = none)
    (failed : step.recovered = false) : step.statusAfter .error = .error := by
  unfold statusAfter
  cases asks : step.1.call? with
  | none => rw [silent]; rfl
  | some call =>
    simp only [recovered, asks, Option.any_some] at failed
    show call.settled .error step.2.outcome = .error
    unfold DriverCall.settled
    split
    · rfl
    · cases outcome : step.2.outcome with
      | ok _ =>
        rw [outcome, show (Except.ok () : Except Error Unit).isOk = true from rfl,
          Bool.and_true] at failed
        exact if_neg (by rw [failed]; decide)
      | error e => cases e <;> rfl

namespace DeviceStatus

theorem afterAll_eq_busy_iff (history : List Answered) {status status' : DeviceStatus}
    (same : status = .busy ↔ status' = .busy) : status.afterAll history = .busy ↔
      (history.filterMap fun step => step.1.stored?).getLastD status' = .busy := by
  induction history generalizing status status' with
  | nil => exact same
  | cons step rest ih =>
    have hstep := step.statusAfter_eq_busy_iff status
    show (step.statusAfter status).afterAll rest = .busy ↔ _
    rw [List.filterMap_cons]
    cases hstored : step.1.stored? with
    | none =>
      rw [hstored] at hstep
      exact ih (hstep.trans same)
    | some stored =>
      rw [hstored] at hstep
      show _ ↔ (stored :: _).getLastD status' = .busy
      rw [List.getLastD_cons]
      exact ih hstep

theorem afterAll_error {history : List Answered}
    (kept : ∀ step ∈ history, step.1.stored? = none ∧ step.recovered = false) :
    DeviceStatus.error.afterAll history = .error := by
  induction history with
  | nil => rfl
  | cons step rest ih =>
    obtain ⟨silent, failed⟩ := kept step List.mem_cons_self
    show (step.statusAfter .error).afterAll rest = .error
    rw [step.statusAfter_error silent failed]
    exact ih fun step hmem => kept step (List.mem_cons_of_mem _ hmem)

end DeviceStatus

/-! ## One operation -/

namespace Device

variable {δ : Type} {driver : Driver δ} (registers : Registers δ) (device : Device (Watched δ))

theorem exists_conduct_watched
    (quiet : ∀ status state, (driver.deinit status state).status = status)
    (free : device.status ≠ .busy) (call : DriverCall) :
    let seen := call.seen device.status
    let (answer, reply) := driver.carryOut seen device.state.state call
    ∃ journal, device.conduct driver.watched call =
      (answer, { device with
        state :=
          { state := reply.state, latestFirst := .called call seen :: device.state.latestFirst }
        status := call.settled device.status answer.outcome
        journal }) := by
  have h := exists_conduct driver.watched device
    (fun status w => quiet status w.state) free call
  rw [Driver.carryOut_watched] at h
  dsimp only
  rw [Driver.outcome_carryOut]
  exact h

variable (driver) in
theorem setIrq_watched (line : UInt32) :
    if driver.kind device.state.state = .interruptCapable then
      ∃ journal, device.perform driver.watched registers.watched (.setIrq line) =
        (.result (.ok ()), { device with
          state :=
            { state := registers.write (device.base + vectorOffset) line device.state.state
              latestFirst :=
                .accessed (.write (device.base + vectorOffset) line) :: device.state.latestFirst }
          irqLine := some line
          journal })
    else
      device.perform driver.watched registers.watched (.setIrq line) =
        (.result (.error .unsupported), device) := by
  simp only [perform, setIrq]
  split
  · rename_i capable
    rw [if_pos (show driver.watched.kind device.state = _ from capable)]
    exact ⟨_, rfl⟩
  · rename_i incapable
    rw [if_neg (show ¬ driver.watched.kind device.state = _ from incapable)]

/-- The status after an operation and its events follow from the operation and its answer. -/
theorem perform_answered (quiet : ∀ status state, (driver.deinit status state).status = status)
    (operation : DeviceOperation) :
    let (answer, after) := device.perform driver.watched registers.watched operation
    let step : Answered := (operation, answer)
    after.base = device.base ∧ after.status = step.statusAfter device.status ∧
      after.state.events = device.state.events ++ step.events device.base device.status := by
  cases asks : operation.call? with
  | some call =>
    rw [perform_call _ _ _ asks]
    simp only [Answered.statusAfter, Answered.events, asks]
    by_cases busy : device.status = .busy
    · rw [conduct_busy _ _ busy, if_pos busy, if_pos busy]
      exact ⟨rfl, busy, (List.append_nil _).symm⟩
    · obtain ⟨journal, h⟩ := exists_conduct_watched device quiet busy call
      rw [h, if_neg busy, if_neg busy]
      exact ⟨rfl, rfl, List.reverse_cons⟩
  | none =>
    simp only [Answered.statusAfter, Answered.events, asks]
    cases operation with
    | init | deinit | read buffer | write bytes => cases asks
    | ioctl code argument =>
      rw [perform_unknown _ _ _ (DeviceOperation.call?_ioctl_eq_none_iff.mp asks)]
      exact ⟨rfl, rfl, (List.append_nil _).symm⟩
    | setIrq line =>
      have h := setIrq_watched driver registers device line
      split at h
      · obtain ⟨journal, h⟩ := h
        rw [h]
        exact ⟨rfl, rfl, List.reverse_cons⟩
      · rw [h]
        exact ⟨rfl, rfl, (List.append_nil _).symm⟩
    | setControlWord word => exact ⟨rfl, rfl, (List.append_nil _).symm⟩
    | storeStatus status => exact ⟨rfl, rfl, (List.append_nil _).symm⟩

/-! ## Runs -/

theorem length_answers {ε : Type} (driver : Driver ε) (registers : Registers ε)
    (operations : List DeviceOperation) (device : Device ε) :
    (device.run driver registers operations).1.length = operations.length := by
  induction operations generalizing device with
  | nil => rfl
  | cons operation rest ih => exact congrArg Nat.succ (ih _)

theorem run_answered (quiet : ∀ status state, (driver.deinit status state).status = status)
    (operations : List DeviceOperation) :
    let (answers, after) := device.run driver.watched registers.watched operations
    let history : List Answered := operations.zip answers
    after.status = device.status.afterAll history ∧
      after.state.events = device.state.events ++ device.status.trace device.base history := by
  induction operations generalizing device with
  | nil => exact ⟨rfl, (List.append_nil _).symm⟩
  | cons operation rest ih =>
    have hstep := perform_answered registers device quiet operation
    simp only [run, List.zip_cons_cons]
    generalize device.perform driver.watched registers.watched operation = performed at hstep ⊢
    obtain ⟨answer, middle⟩ := performed
    obtain ⟨hbase, hstatus, hevents⟩ := hstep
    obtain ⟨hlast, hrest⟩ := ih middle
    rw [hstatus] at hlast
    rw [hstatus, hevents, hbase, List.append_assoc] at hrest
    exact ⟨hlast, hrest⟩

/-- **The state machine of a device.** For any driver that does not store a status while it is
stopped, and from any device: what asks for a call is refused while the device is Busy, with the
whole device unchanged and nothing asked; otherwise the driver is called once, its answer comes
back as it is, it sees Busy (a deinit the status as it was), and its outcome settles the status. A
code that no command has is not supported, Busy or not, and changes nothing but what is reported.
Along any run, answers are those of the unwatched device, status and events follow from the
operations and their answers, Busy is there only if the last store left it, or the start if nothing
was stored, and Error stays until a store, or a success of an init or a Reset. -/
theorem status_machine (driver : Driver δ)
    (quiet : ∀ status state, (driver.deinit status state).status = status)
    (registers : Registers δ) (device : Device (Watched δ)) :
    let perform := device.perform driver.watched registers.watched
    (∀ operation call, operation.call? = some call →
      if device.status = .busy then perform operation = (call.refusal .busy, device)
      else
        let seen := call.seen device.status
        let (answer, reply) := driver.carryOut seen device.state.state call
        ∃ journal, perform operation = (answer, { device with
          state :=
            { state := reply.state, latestFirst := .called call seen :: device.state.latestFirst }
          status := call.settled device.status answer.outcome
          journal })) ∧
    (∀ code argument, (∀ command : DeviceCommand, command.code ≠ code) →
      perform (.ioctl code argument) =
        (.word (.error .unsupported), device.note (.unknownCommand device.base code))) ∧
    (∀ operations,
      let (answers, after) := device.run driver.watched registers.watched operations
      let history : List Answered := operations.zip answers
      device.unwatched.run driver registers operations = (answers, after.unwatched) ∧
      answers.length = operations.length ∧
      after.status = device.status.afterAll history ∧
      after.state.events = device.state.events ++ device.status.trace device.base history ∧
      (after.status = .busy ↔
        (operations.filterMap DeviceOperation.stored?).getLastD device.status = .busy) ∧
      (device.status = .error →
        (∀ step ∈ history, step.1.stored? = none ∧ step.recovered = false) →
        after.status = .error)) := by
  refine ⟨fun operation call asks => ?_, fun code argument unknown => ?_, fun operations => ?_⟩
  · dsimp only
    rw [perform_call _ _ _ asks]
    split
    · rename_i busy
      exact conduct_busy _ _ busy call
    · rename_i free
      exact exists_conduct_watched device quiet free call
  · exact perform_unknown _ _ _ unknown argument
  · have hwatched := unwatched_run driver registers device operations
    have hlength := length_answers driver.watched registers.watched operations device
    have hrun := run_answered registers device quiet operations
    generalize device.run driver.watched registers.watched operations = finished
      at hwatched hlength hrun ⊢
    obtain ⟨answers, after⟩ := finished
    obtain ⟨hstatus, hevents⟩ := hrun
    refine ⟨hwatched, hlength, hstatus, hevents, ?_, fun hfailed hkept => ?_⟩
    · have hfst : (operations.zip answers).map Prod.fst = operations :=
        List.map_fst_zip (Nat.le_of_eq hlength.symm)
      have hstores : (operations.zip answers).filterMap (fun step => step.1.stored?) =
          ((operations.zip answers).map Prod.fst).filterMap DeviceOperation.stored? := by
        rw [List.filterMap_map]
        rfl
      rw [hstatus, DeviceStatus.afterAll_eq_busy_iff _ Iff.rfl, hstores, hfst]
    · rw [hstatus, hfailed]
      exact DeviceStatus.afterAll_error hkept

/-- A driver whose writes succeed once: the second one leaves Error, which a read that succeeds does
not clear; then an interrupt handler stores Busy, and all but an unknown code is refused. -/
theorem status_machine_fails_second :
    let driver : Driver Nat :=
      { kind := fun _ => .uart
        read := fun buffer status count =>
          (buffer.map fun _ => 0xA5, { result := .ok buffer.length, status, state := count })
        write := fun bytes status count =>
          { result := if count = 0 then .ok bytes.length else .error .timeout, status
            state := count + 1 } }
    let registers : Registers Nat := { read := fun _ s => (0, s), write := fun _ _ s => s }
    let device : Device (Watched Nat) := Device.create 0x1000 { state := 0 }
    let first := device.run driver.watched registers.watched [.write [1, 2], .write [3], .read [0]]
    let second := first.2.run driver.watched registers.watched
      [.storeStatus .busy, .init, .ioctl 0x99 0, .ioctl 1 0]
    (∀ status state, (driver.deinit status state).status = status) ∧
      first.2.status = .error ∧
      first.2.state.events =
        [.called (.write [1, 2]) .busy, .called (.write [3]) .busy, .called (.read [0]) .busy] ∧
      second.2.status = .busy ∧ second.2.state.events = first.2.state.events := by
  intro driver registers device first second
  have quiet (status : DeviceStatus) (state : Nat) : (driver.deinit status state).status = status :=
    rfl
  obtain ⟨-, -, hruns⟩ := status_machine driver quiet registers device
  obtain ⟨-, -, hstatus, hevents, -, -⟩ := hruns [.write [1, 2], .write [3], .read [0]]
  obtain ⟨-, -, hruns⟩ := status_machine driver quiet registers first.2
  obtain ⟨-, -, -, hquiet, hbusy, -⟩ :=
    hruns [.storeStatus .busy, .init, .ioctl 0x99 0, .ioctl 1 0]
  exact ⟨quiet, hstatus, hevents, hbusy.mpr rfl, hquiet.trans (List.append_nil _)⟩

end Device

end Firmware
