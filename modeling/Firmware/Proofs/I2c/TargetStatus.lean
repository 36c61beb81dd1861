/-
  Firmware: a device over a target, on any hardware. Its reads and writes are series of
  transactions with the peripheral, made whatever the status, and its answers and its status tell
  what came of them. The status after a run is told by the history of the run alone.
-/
import Firmware.I2c.Target
import Firmware.Proofs.Device.Status
import Firmware.Proofs.Events
import Firmware.Proofs.I2c.Series

namespace Firmware

namespace Answered

/-- Whether this is a read or a write that failed. -/
def transferFailed (step : Answered) : Bool :=
  match step.1 with
  | .read _ | .write _ => !step.2.outcome.isOk
  | _ => false

/-- The status that an operation settles, if it settles one. -/
def settles? (step : Answered) : Option DeviceStatus :=
  if step.recovered then some .idle else if step.transferFailed then some .error else none

theorem settles?_eq_error_iff {step : Answered} :
    step.settles? = some .error ↔ step.transferFailed = true := by
  unfold settles?
  have hexclusive : step.transferFailed = true → step.recovered = false := by
    obtain ⟨operation, answer⟩ := step
    cases operation with
    | read _ | write _ => exact fun _ => rfl
    | _ => exact nofun
  cases hfailed : step.transferFailed with
  | false => split <;> simp
  | true => simp [hexclusive hfailed]

/-- What settles no status but Error is no recovery. -/
theorem settles?_only_error_iff {step : Answered} :
    (∀ settled, step.settles? = some settled → settled = .error) ↔ step.recovered = false := by
  unfold settles?
  cases step.recovered with
  | true => simp
  | false =>
    cases step.transferFailed with
    | true => simp
    | false => simp

theorem getD_settles?_ne_busy (step : Answered) {status : DeviceStatus} (free : status ≠ .busy) :
    step.settles?.getD status ≠ .busy := by
  unfold settles?
  split
  · exact nofun
  · split
    · exact nofun
    · exact free

theorem settles?_unsupported (code argument : UInt32) :
    settles? (.ioctl code argument, .word (.error .unsupported)) = none := by
  have hfailed : recovered (.ioctl code argument, .word (.error .unsupported)) = false :=
    Bool.and_false _
  rw [settles?, hfailed]
  rfl

end Answered

namespace I2c

namespace Payload

/-- The operation of a device that moves a payload. -/
def operation : Payload → DeviceOperation
  | .write bytes => .write bytes
  | .read buffer => .read buffer

/-- The call of a driver that moves a payload. -/
def call : Payload → DriverCall
  | .write bytes => .write bytes
  | .read buffer => .read buffer

/-- The answer of a device that moved a payload, which is left as given. -/
def answer (result : Except Error Unit) : Payload → DeviceAnswer
  | .write bytes => .count (result.map fun _ => bytes.length)
  | .read filled => .filled (result.map fun _ => filled.length) filled

theorem call?_operation (payload : Payload) : payload.operation.call? = some payload.call := by
  cases payload <;> rfl

theorem outcome_answer (result : Except Error Unit) (payload : Payload) :
    (payload.answer result).outcome = result := by
  cases payload <;> cases result <;> rfl

end Payload

namespace Target

variable {σ : Type} {hardware : Hardware σ}

/-! ## One call of the driver -/

/-- The transactions that a target makes with its peripheral, from the bus as it finds it. -/
def Transacts (hardware : Hardware σ) (target : Target σ) (payload : Payload)
    (outcomes : List Outcome) (payload' : Payload) (bus : σ) : Prop :=
  Series (target.controller.window hardware) target.address
    target.controller.config.timeoutBudget.toNat payload target.controller.bus outcomes payload' bus

/-- How often a target tries a transfer. -/
def limit (target : Target σ) : Nat := target.controller.config.maxRetries.toNat

/-- A target that is bound and configured in the same way. -/
def Same (target target' : Target σ) : Prop :=
  target'.address = target.address ∧ target'.controller.config = target.controller.config

theorem Same.trans {t t' t'' : Target σ} (h : t.Same t') (h' : t'.Same t'') : t.Same t'' :=
  ⟨h'.1.trans h.1, h'.2.trans h.2⟩

theorem plain_reply (target : Target σ) (status : DeviceStatus) (result : Except Error Unit)
    (n : Nat) (c : Controller σ) :
    (target.reply status (result.map fun _ => n) c).plain = target.reply status result c := by
  cases result <;> rfl

/-- What the driver makes of a payload. -/
theorem carryOut_transfer (hardware : Hardware σ) (target : Target σ) (status : DeviceStatus)
    (payload : Payload) : ∃ outcomes result payload' reply,
      (driver hardware).carryOut status target payload.call = (payload'.answer result, reply) ∧
        payload.Alike payload' ∧ target.Same reply.state ∧
        target.Transacts hardware payload outcomes payload' reply.state.controller.bus ∧
        Repeated target.limit outcomes result := by
  obtain ⟨outcomes, result, payload', c', htried, hconfig, -, hseries, hrepeated⟩ :=
    Controller.exchangeWithRetries_series hardware target.limit target.address payload
      target.controller
  have halike := hseries.alike
  refine ⟨outcomes, result, payload', target.reply status result c', ?_⟩
  rw [limit] at htried
  cases halike with
  | write bytes =>
    simp only [Payload.call, Driver.carryOut, driver, Controller.sendWithRetries, htried,
      plain_reply]
    exact ⟨rfl, .write bytes, ⟨rfl, hconfig⟩, hseries, hrepeated⟩
  | read hlength =>
    simp only [Payload.call, Driver.carryOut, driver, Controller.receiveWithRetries, htried,
      plain_reply]
    exact ⟨rfl, .read hlength, ⟨rfl, hconfig⟩, hseries, hrepeated⟩

/-! ## One operation of the device -/

variable (registers : Registers (Target σ)) {device : Device (Target σ)}

section

variable (hardware)

/-- A call of a device that is not busy is made by the driver, and its answer settles the status. -/
theorem perform_of_carryOut (free : device.status ≠ .busy) {operation : DeviceOperation}
    {call : DriverCall} {answer : DeviceAnswer} {reply : DriverReply (Target σ) Unit}
    (asks : operation.call? = some call)
    (calls : (driver hardware).carryOut (call.seen device.status) device.state call =
      (answer, reply)) :
    ∃ journal, device.perform (driver hardware) registers operation =
      (answer, { device with
        state := reply.state
        status := call.settled device.status answer.outcome
        journal }) := by
  have houtcome := (driver hardware).outcome_carryOut (call.seen device.status) device.state call
  have hconduct := device.exists_conduct (driver hardware) (fun _ _ => rfl) free call
  rw [calls] at houtcome hconduct
  rw [Device.perform_call _ _ _ asks, houtcome]
  exact hconduct

/-- What moving a payload comes to, also in Error. -/
theorem perform_transfer (free : device.status ≠ .busy) (payload : Payload) :
    ∃ outcomes result payload' after,
      device.perform (driver hardware) registers payload.operation =
        (payload'.answer result, after) ∧
      payload.Alike payload' ∧ device.state.Same after.state ∧
      device.state.Transacts hardware payload outcomes payload' after.state.controller.bus ∧
      Repeated device.state.limit outcomes result ∧
      after.status = payload.call.settled device.status result := by
  obtain ⟨outcomes, result, payload', reply, hcalled, halike, hsame, htransacts, hrepeated⟩ :=
    carryOut_transfer hardware device.state (payload.call.seen device.status) payload
  obtain ⟨journal, hperform⟩ :=
    perform_of_carryOut hardware registers free payload.call?_operation hcalled
  refine ⟨outcomes, result, payload', _, hperform, halike, hsame, htransacts, hrepeated, ?_⟩
  dsimp only
  rw [Payload.outcome_answer]

/-- A speed is written to the clock register, and nothing else is accessed. -/
theorem perform_setSpeed (free : device.status ≠ .busy) (hz : UInt32) :
    ∃ after, device.perform (driver hardware) registers
        (.ioctl DeviceCommand.setSpeed.code hz) = (.word (.ok 0), after) ∧
      after.status = device.status ∧ device.state.Same after.state ∧
      after.state.controller.bus = hardware.write
        (device.state.controller.config.baseAddress + clockOffset) hz
        device.state.controller.bus := by
  have asks : (DeviceOperation.ioctl DeviceCommand.setSpeed.code hz).call? =
      some (.ioctl .setSpeed hz) := rfl
  obtain ⟨journal, hperform⟩ := perform_of_carryOut hardware registers free asks rfl
  exact ⟨_, hperform, rfl, ⟨rfl, rfl⟩, rfl⟩

/-- Every code but those of Reset and of the speed is not supported and does nothing. -/
theorem perform_unsupported (free : device.status ≠ .busy) {code : UInt32}
    (hreset : code ≠ DeviceCommand.reset.code) (hspeed : code ≠ DeviceCommand.setSpeed.code)
    (argument : UInt32) :
    ∃ after, device.perform (driver hardware) registers (.ioctl code argument) =
        (.word (.error .unsupported), after) ∧
      after.status = device.status ∧ device.state.Same after.state ∧
      after.state.controller.bus = device.state.controller.bus := by
  by_cases known : ∃ command : DeviceCommand, command.code = code
  · obtain ⟨command, rfl⟩ := known
    have asks : (DeviceOperation.ioctl command.code argument).call? =
        some (.ioctl command argument) := by
      rw [DeviceOperation.call?, DeviceCommand.ofCode_code]
    obtain ⟨journal, hperform⟩ := perform_of_carryOut hardware registers free asks rfl
    cases command with
    | reset => exact absurd rfl hreset
    | setSpeed => exact absurd rfl hspeed
    | enableIrq | disableIrq => exact ⟨_, hperform, rfl, ⟨rfl, rfl⟩, rfl⟩
  · have unknown (command : DeviceCommand) : command.code ≠ code := fun h => known ⟨command, h⟩
    exact ⟨_, Device.perform_unknown _ _ _ unknown argument, rfl, ⟨rfl, rfl⟩, rfl⟩

theorem perform_transfer_settles (free : device.status ≠ .busy) (payload : Payload) :
    ∃ answer after,
      device.perform (driver hardware) registers payload.operation = (answer, after) ∧
      after.status = (Answered.settles? (payload.operation, answer)).getD device.status ∧
      device.state.Same after.state := by
  obtain ⟨outcomes, result, payload', after, hperform, halike, hsame, -, hrepeated, hstatus⟩ :=
    perform_transfer hardware registers free payload
  refine ⟨_, after, hperform, ?_, hsame⟩
  rw [hstatus]
  cases halike <;> cases hrepeated <;> rfl

/-- The status after an operation that stores none is told by the operation and its answer. -/
theorem perform_settles (free : device.status ≠ .busy) {operation : DeviceOperation}
    (silent : operation.stored? = none) :
    ∃ answer after, device.perform (driver hardware) registers operation = (answer, after) ∧
      after.status = (Answered.settles? (operation, answer)).getD device.status ∧
      device.state.Same after.state := by
  cases operation with
  | read buffer => exact perform_transfer_settles hardware registers free (.read buffer)
  | write bytes => exact perform_transfer_settles hardware registers free (.write bytes)
  | init =>
    have asks : DeviceOperation.init.call? = some .init := rfl
    obtain ⟨journal, hperform⟩ := perform_of_carryOut hardware registers free asks rfl
    exact ⟨_, _, hperform, rfl, rfl, rfl⟩
  | deinit =>
    have asks : DeviceOperation.deinit.call? = some .deinit := rfl
    obtain ⟨journal, hperform⟩ := perform_of_carryOut hardware registers free asks rfl
    exact ⟨_, _, hperform, rfl, rfl, rfl⟩
  | ioctl code argument =>
    by_cases hreset : code = DeviceCommand.reset.code
    · subst hreset
      have asks : (DeviceOperation.ioctl DeviceCommand.reset.code argument).call? =
          some (.ioctl .reset argument) := rfl
      obtain ⟨journal, hperform⟩ := perform_of_carryOut hardware registers free asks rfl
      exact ⟨_, _, hperform, rfl, rfl, rfl⟩
    · by_cases hspeed : code = DeviceCommand.setSpeed.code
      · subst hspeed
        obtain ⟨after, hperform, hstatus, hsame, -⟩ :=
          perform_setSpeed hardware registers free argument
        exact ⟨_, after, hperform, hstatus, hsame⟩
      · obtain ⟨after, hperform, hstatus, hsame, -⟩ :=
          perform_unsupported hardware registers free hreset hspeed argument
        refine ⟨_, after, hperform, ?_, hsame⟩
        rw [hstatus, Answered.settles?_unsupported]
        rfl
  | setIrq line => exact ⟨_, _, rfl, rfl, rfl, rfl⟩
  | setControlWord word => exact ⟨_, _, rfl, rfl, rfl, rfl⟩
  | storeStatus status => cases silent

/-! ## Runs -/

theorem run_settles (free : device.status ≠ .busy) {operations : List DeviceOperation}
    (unstored : ∀ operation ∈ operations, operation.stored? = none) :
    ∃ answers after, device.run (driver hardware) registers operations = (answers, after) ∧
      after.status ≠ .busy ∧
      after.status = latest Answered.settles? device.status (operations.zip answers) ∧
      device.state.Same after.state := by
  induction operations generalizing device with
  | nil => exact ⟨[], device, rfl, free, rfl, rfl, rfl⟩
  | cons operation rest ih =>
    obtain ⟨answer, middle, hperform, hstatus, hsame⟩ :=
      perform_settles hardware registers free (unstored _ List.mem_cons_self)
    have hfree : middle.status ≠ .busy := by
      rw [hstatus]
      exact Answered.getD_settles?_ne_busy _ free
    obtain ⟨answers, after, hrun, hfree', hstatus', hsame'⟩ :=
      ih hfree fun operation hmem => unstored operation (List.mem_cons_of_mem _ hmem)
    refine ⟨answer :: answers, after, ?_, hfree', ?_, hsame.trans hsame'⟩
    · simp only [Device.run, hperform, hrun]
    · rw [List.zip_cons_cons, latest_cons, latest_singleton, hstatus', hstatus]

end

/-- **A device on the bus tells the truth.** On any hardware, with any relax hook, configuration
and target, and after any run of operations that stores no status: the status is Idle or Error,
and it is Error exactly if some read or write failed after which no init and no Reset succeeded.
A read or a write is then made, also in Error, as at most as many transactions with the target as
the configuration allows, and it succeeds with the length of its buffer exactly if one of them
does; otherwise all that are allowed were made, and it has failed, with no other error. Setting
the speed writes it to the clock register and does nothing else; every other code but that of
Reset is not supported and leaves the hardware alone; neither changes the status. -/
theorem target_truthful (hardware : Hardware σ) (registers : Registers (Target σ)) (base : UInt64)
    (target : Target σ) (operations : List DeviceOperation)
    (unstored : ∀ operation ∈ operations, operation.stored? = none) :
    let (answers, device) := (Device.create base target).run (driver hardware) registers operations
    let history : List Answered := operations.zip answers
    let perform := device.perform (driver hardware) registers
    target.Same device.state ∧
    (device.status = .idle ∨ device.status = .error) ∧
    (device.status = .error ↔ ∃ earlier step later, history = earlier ++ step :: later ∧
      step.transferFailed = true ∧ ∀ step ∈ later, step.recovered = false) ∧
    (∀ bytes, ∃ outcomes result after,
      perform (.write bytes) = (.count result, after) ∧
      device.state.Transacts hardware (.write bytes) outcomes (.write bytes)
        after.state.controller.bus ∧
      outcomes.length ≤ target.limit ∧
      (result = .ok bytes.length ∧ .ok () ∈ outcomes ∨
        result = .error .failed ∧ .ok () ∉ outcomes ∧ outcomes.length = target.limit)) ∧
    (∀ buffer, ∃ outcomes result filled after,
      perform (.read buffer) = (.filled result filled, after) ∧ filled.length = buffer.length ∧
      device.state.Transacts hardware (.read buffer) outcomes (.read filled)
        after.state.controller.bus ∧
      outcomes.length ≤ target.limit ∧
      (result = .ok buffer.length ∧ .ok () ∈ outcomes ∨
        result = .error .failed ∧ .ok () ∉ outcomes ∧ outcomes.length = target.limit)) ∧
    (∀ hz, ∃ after,
      perform (.ioctl DeviceCommand.setSpeed.code hz) = (.word (.ok 0), after) ∧
      after.status = device.status ∧
      after.state.controller.bus = hardware.write
        (target.controller.config.baseAddress + clockOffset) hz device.state.controller.bus) ∧
    (∀ code argument, code ≠ DeviceCommand.reset.code → code ≠ DeviceCommand.setSpeed.code →
      ∃ after, perform (.ioctl code argument) = (.word (.error .unsupported), after) ∧
        after.status = device.status ∧
        after.state.controller.bus = device.state.controller.bus) := by
  have free : (Device.create base target).status ≠ .busy := nofun
  have hidle : (Device.create base target).status ≠ .error := nofun
  obtain ⟨answers, device, hrun, hfree, hstatus, hsame⟩ :=
    run_settles hardware registers free unstored
  obtain ⟨haddress, hconfig⟩ := hsame
  have hlimit : device.state.limit = target.limit :=
    congrArg (fun config => config.maxRetries.toNat) hconfig
  rw [hrun]
  refine ⟨⟨haddress, hconfig⟩, ?_, ?_, fun bytes => ?_, fun buffer => ?_, fun hz => ?_,
    fun code argument hreset hspeed => ?_⟩
  · cases hcase : device.status with
    | idle => exact .inl rfl
    | busy => exact absurd hcase hfree
    | error => exact .inr rfl
  · rw [hstatus, latest_eq_iff hidle]
    simp only [Answered.settles?_eq_error_iff, Answered.settles?_only_error_iff]
  · obtain ⟨outcomes, result, payload', after, hperform, halike, -, htransacts, hrepeated, -⟩ :=
      perform_transfer hardware registers hfree (.write bytes)
    cases halike
    rw [hlimit] at hrepeated
    refine ⟨outcomes, _, after, hperform, htransacts, hrepeated.length_le, ?_⟩
    rcases hrepeated.result_eq with ⟨rfl, hmem⟩ | ⟨rfl, hrest⟩
    · exact .inl ⟨rfl, hmem⟩
    · exact .inr ⟨rfl, hrest⟩
  · obtain ⟨outcomes, result, payload', after, hperform, halike, -, htransacts, hrepeated, -⟩ :=
      perform_transfer hardware registers hfree (.read buffer)
    cases halike with
    | @read _ filled hlength =>
    rw [hlimit] at hrepeated
    refine ⟨outcomes, _, filled, after, hperform, hlength, htransacts, hrepeated.length_le, ?_⟩
    rcases hrepeated.result_eq with ⟨rfl, hmem⟩ | ⟨rfl, hrest⟩
    · exact .inl ⟨congrArg Except.ok hlength, hmem⟩
    · exact .inr ⟨rfl, hrest⟩
  · obtain ⟨after, hperform, hkept, -, hbus⟩ := perform_setSpeed hardware registers hfree hz
    rw [hconfig] at hbus
    exact ⟨after, hperform, hkept, hbus⟩
  · obtain ⟨after, hperform, hkept, -, hbus⟩ :=
      perform_unsupported hardware registers hfree hreset hspeed argument
    exact ⟨after, hperform, hkept, hbus⟩

/-- A bus with nobody on it, where the status reads zero: a write fails in both of its attempts,
and the device is in Error, where deinit leaves it. -/
theorem target_truthful_nobody :
    let hardware : Hardware Nat :=
      { read := fun _ accesses => (0, accesses + 1), write := fun _ _ accesses => accesses + 1
        relax := id }
    let registers : Registers (Target Nat) := hardware.within (·.controller.bus)
      fun bus target => { target with controller := { target.controller with bus } }
    let target : Target Nat :=
      { controller := .create { timeoutBudget := 1, maxRetries := 2 } 0
        address := ⟨0x50, by decide⟩ }
    let operations : List DeviceOperation := [.init, .write [0x10, 7], .deinit]
    let device := ((Device.create defaultBase target).run (driver hardware) registers operations).2
    (∀ operation ∈ operations, operation.stored? = none) ∧
      device.status = .error ∧
      ∃ after, device.perform (driver hardware) registers
          (.ioctl DeviceCommand.enableIrq.code 0) = (.word (.error .unsupported), after) ∧
        after.status = .error ∧ after.state.controller.bus = device.state.controller.bus := by
  intro hardware registers target operations device
  have unstored : ∀ operation ∈ operations, operation.stored? = none := by
    simp [operations, DeviceOperation.stored?]
  obtain ⟨-, -, hstatus, -, -, -, hunsupported⟩ :=
    target_truthful hardware registers defaultBase target operations unstored
  let stopped : Answered := (.deinit, .result (.ok ()))
  have hlater : ∀ step ∈ [stopped], step.recovered = false := by
    intro step hmem
    rw [List.mem_singleton.mp hmem]
    rfl
  have herror : device.status = .error :=
    hstatus.mpr ⟨[(.init, .result (.ok ()))], (.write [0x10, 7], .count (.error .failed)),
      [stopped], rfl, rfl, hlater⟩
  obtain ⟨after, hperform, hkept, hbus⟩ :=
    hunsupported DeviceCommand.enableIrq.code 0 (by decide) (by decide)
  exact ⟨unstored, herror, after, hperform, hkept.trans herror, hbus⟩

end Target

end I2c

end Firmware
