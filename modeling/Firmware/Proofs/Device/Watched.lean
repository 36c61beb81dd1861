/-
  Firmware: what a device handle asks of its driver and of its registers. Watched, both behave as
  before, and every call and every access is kept in order, a call with the status that it saw.
-/
import Firmware.Proofs.Device.Calls
import Firmware.Registers.Recorded

namespace Firmware

/-- What a handle asks of its driver or of its registers. -/
inductive DeviceEvent where
  /-- A call and the status that it saw. -/
  | called (call : DriverCall) (seen : DeviceStatus)
  | accessed (access : Access)
  deriving DecidableEq

/-- A state together with what a handle asked of it. -/
structure Watched (δ : Type) where
  state : δ
  /-- The events, the latest one first. -/
  latestFirst : List DeviceEvent := []

variable {δ α : Type}

/-- The events in the order in which they came. -/
def Watched.events (watched : Watched δ) : List DeviceEvent := watched.latestFirst.reverse

/-- The same reply, with the call that it answers kept. -/
def DriverReply.watched (reply : DriverReply δ α) (call : DriverCall) (seen : DeviceStatus)
    (before : List DeviceEvent) : DriverReply (Watched δ) α where
  result := reply.result
  status := reply.status
  state := { state := reply.state, latestFirst := .called call seen :: before }
  records := reply.records

/-- The same driver, with every call kept. -/
def Driver.watched (driver : Driver δ) : Driver (Watched δ) where
  kind w := driver.kind w.state
  init seen w := (driver.init seen w.state).watched .init seen w.latestFirst
  deinit seen w := (driver.deinit seen w.state).watched .deinit seen w.latestFirst
  read buffer seen w :=
    let (filled, reply) := driver.read buffer seen w.state
    (filled, reply.watched (.read buffer) seen w.latestFirst)
  write bytes seen w := (driver.write bytes seen w.state).watched (.write bytes) seen w.latestFirst
  ioctl command argument seen w :=
    (driver.ioctl command argument seen w.state).watched (.ioctl command argument) seen
      w.latestFirst

/-- The same registers, with every access kept. -/
def Registers.watched (registers : Registers δ) : Registers (Watched δ) where
  read address w :=
    let (value, state) := registers.read address w.state
    (value, { state, latestFirst := .accessed (.read address value) :: w.latestFirst })
  write address value w :=
    { state := registers.write address value w.state
      latestFirst := .accessed (.write address value) :: w.latestFirst }

theorem Driver.carryOut_watched (driver : Driver δ) (seen : DeviceStatus) (w : Watched δ)
    (call : DriverCall) : driver.watched.carryOut seen w call =
      ((driver.carryOut seen w.state call).1,
        (driver.carryOut seen w.state call).2.watched call seen w.latestFirst) := by
  cases call <;> rfl

namespace Device

/-- The device without what was kept of its events. -/
def unwatched (device : Device (Watched δ)) : Device δ where
  base := device.base
  state := device.state.state
  status := device.status
  controlWord := device.controlWord
  irqLine := device.irqLine
  journal := device.journal

variable (driver : Driver δ) (registers : Registers δ) (device : Device (Watched δ))

theorem unwatched_finish (reply : DriverReply δ α) (prior : DeviceStatus) (recovers : Bool)
    (call : DriverCall) (seen : DeviceStatus) (before : List DeviceEvent) :
    (device.finish prior recovers (reply.watched call seen before)).unwatched =
      device.unwatched.finish prior recovers reply := by
  simp only [finish, DriverReply.watched]
  split <;> rfl

theorem unwatched_conduct (call : DriverCall) :
    device.unwatched.conduct driver call =
      ((device.conduct driver.watched call).1,
        (device.conduct driver.watched call).2.unwatched) := by
  simp only [conduct, Driver.carryOut_watched]
  by_cases busy : device.status = .busy
  · rw [if_pos busy, if_pos (show device.unwatched.status = .busy from busy)]
  · rw [if_neg busy, if_neg (show ¬ device.unwatched.status = .busy from busy)]
    refine Prod.ext rfl ?_
    by_cases stops : call = .deinit
    · rw [if_pos stops, if_pos stops]
      rfl
    · rw [if_neg stops, if_neg stops]
      exact (unwatched_finish ..).symm

theorem unwatched_perform (operation : DeviceOperation) :
    device.unwatched.perform driver registers operation =
      ((device.perform driver.watched registers.watched operation).1,
        (device.perform driver.watched registers.watched operation).2.unwatched) := by
  cases h : operation.call? with
  | some call => rw [perform_call _ _ _ h, perform_call _ _ _ h, unwatched_conduct]
  | none =>
    cases operation with
    | ioctl code argument =>
      have unknown := DeviceOperation.call?_ioctl_eq_none_iff.mp h
      rw [perform_unknown _ _ _ unknown, perform_unknown _ _ _ unknown]
      rfl
    | setIrq line =>
      simp only [perform, setIrq]
      by_cases capable : driver.kind device.state.state = .interruptCapable
      · rw [if_pos (show driver.kind device.unwatched.state = _ from capable),
          if_pos (show driver.watched.kind device.state = _ from capable)]
        rfl
      · rw [if_neg (show ¬ driver.kind device.unwatched.state = _ from capable),
          if_neg (show ¬ driver.watched.kind device.state = _ from capable)]
    | setControlWord word => rfl
    | storeStatus status => rfl
    | init | deinit | read buffer | write bytes => cases h

/-- Watching changes neither the answers of a run nor where it ends. -/
theorem unwatched_run (operations : List DeviceOperation) :
    device.unwatched.run driver registers operations =
      ((device.run driver.watched registers.watched operations).1,
        (device.run driver.watched registers.watched operations).2.unwatched) := by
  induction operations generalizing device with
  | nil => rfl
  | cons operation rest ih =>
    simp only [run]
    rw [unwatched_perform, ih]

end Device

end Firmware
