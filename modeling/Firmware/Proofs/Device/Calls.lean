/-
  Firmware: device operations as calls of a driver. Every operation that reaches a driver does so
  in one way, whatever the capability: it is refused while another one is in flight, and otherwise
  made once, after which its outcome decides the status.
-/
import Firmware.Device.Operation

namespace Firmware

/-- A call of a driver with what it is given. -/
inductive DriverCall where
  | init
  | deinit
  | read (buffer : List UInt8)
  | write (bytes : List UInt8)
  | ioctl (command : DeviceCommand) (argument : UInt32)
  deriving DecidableEq

namespace DriverCall

/-- The answer to a call that fails with nothing done. -/
def refusal (e : Error) : DriverCall → DeviceAnswer
  | .init | .deinit => .result (.error e)
  | .read buffer => .filled (.error e) buffer
  | .write _ => .count (.error e)
  | .ioctl _ _ => .word (.error e)

/-- Whether success makes the device idle, also out of Error. -/
def recovers : DriverCall → Bool
  | .init | .ioctl .reset _ => true
  | _ => false

/-- The status that a driver sees: an operation is in flight, unless the device is being stopped. -/
def seen (status : DeviceStatus) : DriverCall → DeviceStatus
  | .deinit => status
  | _ => .busy

/-- The status after a call that was made, from the status before it. -/
def settled (call : DriverCall) (status : DeviceStatus) (outcome : Except Error Unit) :
    DeviceStatus :=
  if call = .deinit then status
  else
    match outcome with
    | .ok () => if call.recovers then .idle else status
    | .error .unsupported => status
    | .error _ => .error

end DriverCall

/-- The call that an operation asks for. A code that no command has asks for none. -/
def DeviceOperation.call? : DeviceOperation → Option DriverCall
  | .init => some .init
  | .deinit => some .deinit
  | .read buffer => some (.read buffer)
  | .write bytes => some (.write bytes)
  | .ioctl code argument =>
    match DeviceCommand.ofCode code with
    | .ok command => some (.ioctl command argument)
    | .error _ => none
  | .setIrq _ | .setControlWord _ | .storeStatus _ => none

/-- Whether an answer tells of success, and with what it failed otherwise. -/
def DeviceAnswer.outcome : DeviceAnswer → Except Error Unit
  | .done => .ok ()
  | .result answer => answer
  | .count answer | .filled answer _ => answer.map fun _ => ()
  | .word answer => answer.map fun _ => ()

variable {δ α : Type}

/-- The same reply without the value of a success. -/
def DriverReply.plain (reply : DriverReply δ α) : DriverReply δ Unit where
  result := reply.result.map fun _ => ()
  status := reply.status
  state := reply.state
  records := reply.records

/-- Makes a call. The answer is the driver's own. -/
def Driver.carryOut (driver : Driver δ) (status : DeviceStatus) (state : δ) :
    DriverCall → DeviceAnswer × DriverReply δ Unit
  | .init =>
    let reply := driver.init status state
    (.result reply.result, reply)
  | .deinit =>
    let reply := driver.deinit status state
    (.result reply.result, reply)
  | .read buffer =>
    let (buffer, reply) := driver.read buffer status state
    (.filled reply.result buffer, reply.plain)
  | .write bytes =>
    let reply := driver.write bytes status state
    (.count reply.result, reply.plain)
  | .ioctl command argument =>
    let reply := driver.ioctl command argument status state
    (.word reply.result, reply.plain)

theorem Driver.outcome_carryOut (driver : Driver δ) (status : DeviceStatus) (state : δ)
    (call : DriverCall) : (driver.carryOut status state call).1.outcome =
      (driver.carryOut status state call).2.result := by
  cases call <;> rfl

theorem DeviceCommand.ofCode_unknown {code : UInt32}
    (h : ∀ command : DeviceCommand, command.code ≠ code) : ofCode code = .error .unsupported := by
  unfold ofCode
  rw [if_neg fun e => h .reset e.symm, if_neg fun e => h .setSpeed e.symm,
    if_neg fun e => h .enableIrq e.symm, if_neg fun e => h .disableIrq e.symm]

theorem DeviceOperation.call?_ioctl_eq_none_iff {code argument : UInt32} :
    (DeviceOperation.ioctl code argument).call? = none ↔
      ∀ command : DeviceCommand, command.code ≠ code := by
  constructor
  · rintro h command rfl
    simp [call?, DeviceCommand.ofCode_code] at h
  · intro h
    simp [call?, DeviceCommand.ofCode_unknown h]

namespace Device

variable (driver : Driver δ) (registers : Registers δ) (device : Device δ)

/-- Makes a call through a handle. -/
def conduct (call : DriverCall) : DeviceAnswer × Device δ :=
  if device.status = .busy then (call.refusal .busy, device)
  else
    let (answer, reply) := driver.carryOut (call.seen device.status) device.state call
    (answer,
      if call = .deinit then device.accept reply
      else device.finish device.status call.recovers reply)

/-- What a success is about does not matter to the handle. -/
theorem finish_plain (prior : DeviceStatus) (recovers : Bool) (reply : DriverReply δ α) :
    device.finish prior recovers reply.plain = device.finish prior recovers reply := by
  obtain ⟨result, status, state, records⟩ := reply
  cases result with
  | ok a => rfl
  | error e => cases e <;> rfl

/-- What a finished call leaves behind, but for what is reported. -/
theorem exists_finish (prior : DeviceStatus) (recovers : Bool) (reply : DriverReply δ α) :
    ∃ journal, device.finish prior recovers reply =
      { device with
        state := reply.state
        status := statusAfter prior recovers reply.result
        journal } := by
  unfold finish
  split <;> exact ⟨_, rfl⟩

theorem statusAfter_recovers {call : DriverCall} (h : call ≠ .deinit) (prior : DeviceStatus)
    (outcome : Except Error Unit) :
    statusAfter prior call.recovers outcome = call.settled prior outcome := by
  unfold DriverCall.settled
  rw [if_neg h]
  cases outcome with
  | ok _ => rfl
  | error e => cases e <;> rfl

theorem conduct_busy (busy : device.status = .busy) (call : DriverCall) :
    device.conduct driver call = (call.refusal .busy, device) :=
  if_pos busy

/-- A call of a free device is made once, with its outcome deciding the status. -/
theorem exists_conduct (quiet : ∀ status state, (driver.deinit status state).status = status)
    (free : device.status ≠ .busy) (call : DriverCall) :
    let (answer, reply) := driver.carryOut (call.seen device.status) device.state call
    ∃ journal, device.conduct driver call =
      (answer, { device with
        state := reply.state
        status := call.settled device.status reply.result
        journal }) := by
  dsimp only [conduct]
  rw [if_neg free]
  by_cases stops : call = .deinit
  · subst stops
    refine ⟨device.journal.addAll (driver.deinit device.status device.state).records, ?_⟩
    show (_, device.accept (driver.deinit device.status device.state)) = _
    rw [accept, quiet]
    rfl
  · rw [if_neg stops, ← statusAfter_recovers stops]
    obtain ⟨journal, hfinish⟩ := exists_finish device device.status call.recovers _
    exact ⟨journal, congrArg (Prod.mk _) hfinish⟩

theorem perform_call {operation : DeviceOperation} {call : DriverCall}
    (asks : operation.call? = some call) :
    device.perform driver registers operation = device.conduct driver call := by
  unfold conduct
  cases operation with
  | init | deinit | read buffer | write bytes =>
    cases asks
    simp only [perform, init, deinit, read, write, Driver.carryOut, finish_plain]
    split <;> rfl
  | ioctl code argument =>
    simp only [DeviceOperation.call?] at asks
    simp only [perform, ioctl]
    generalize DeviceCommand.ofCode code = decoded at asks ⊢
    cases decoded with
    | error e => cases asks
    | ok command =>
      cases asks
      simp only [Driver.carryOut, finish_plain]
      cases command <;> split <;> rfl
  | setIrq line | setControlWord word | storeStatus status => cases asks

theorem perform_unknown {code : UInt32} (unknown : ∀ command : DeviceCommand, command.code ≠ code)
    (argument : UInt32) : device.perform driver registers (.ioctl code argument) =
      (.word (.error .unsupported), device.note (.unknownCommand device.base code)) := by
  simp only [perform, ioctl, DeviceCommand.ofCode_unknown unknown]

/-! ## Transfers that succeed -/

variable {driver device}

theorem write_of_ok (free : device.status ≠ .busy) {bytes : List UInt8}
    {reply : DriverReply δ Nat} {n : Nat}
    (calls : driver.write bytes .busy device.state = reply) (succeeds : reply.result = .ok n) :
    ∃ journal, device.write driver bytes =
      (.ok n, { device with state := reply.state, journal }) := by
  obtain ⟨journal, hfinish⟩ := exists_finish device device.status false reply
  refine ⟨journal, ?_⟩
  rw [write, if_neg free]
  simp only [calls, hfinish, succeeds]
  rfl

theorem read_of_ok (free : device.status ≠ .busy) {buffer filled : List UInt8}
    {reply : DriverReply δ Nat} {n : Nat}
    (calls : driver.read buffer .busy device.state = (filled, reply))
    (succeeds : reply.result = .ok n) :
    ∃ journal, device.read driver buffer =
      (.ok n, filled, { device with state := reply.state, journal }) := by
  obtain ⟨journal, hfinish⟩ := exists_finish device device.status false reply
  refine ⟨journal, ?_⟩
  rw [read, if_neg free]
  simp only [calls, hfinish, succeeds]
  rfl

end Device

end Firmware
