/-
  Firmware: the clock and the acknowledgment of received bytes, on a simulated controller. START,
  STOP and the acknowledge bit share a register that is read and written back as a whole. Since
  START and STOP never stay there, a transaction leaves what was set as it is, wherever it fails,
  and so does all that is made of transactions; `settings_latest` says so for runs in which the
  controller is also used as a device and the bus is handled in any way.
-/
import Firmware.Proofs.Device.Calls
import Firmware.Proofs.Events
import Firmware.Proofs.I2c.Hosted
import Firmware.Proofs.I2c.Operations
import Firmware.Proofs.I2c.SimulatorSteps
import Firmware.Proofs.I2c.TransferSteps

namespace Firmware.I2c

open Simulator (SameSettings Reachable hosted bare)

/-! ## Adjustments -/

namespace Adjustment

/-- The clock rate that is set, if one is. -/
def clock? (config : Config) : Adjustment → Option UInt32
  | .started => some config.defaultSpeedHz
  | .stopped => none
  | .clocked hz => some hz

/-- Whether received bytes are acknowledged from then on, if this is set. -/
def ack? : Adjustment → Option Bool
  | .started => some true
  | .stopped => some false
  | .clocked _ => none

end Adjustment

/-- A simulator is left with what an adjustment set and, for the rest, with what it had. -/
structure Simulator.Adjusted (config : Config) (adjustment : Option Adjustment)
    (sim after : Simulator) : Prop where
  sound : after.Sound config.baseAddress
  clock_eq : after.clock = (adjustment.bind (·.clock? config)).getD sim.clock
  ack_eq : after.ackEnabled = (adjustment.bind (·.ack?)).getD sim.ackEnabled

theorem Simulator.SameSettings.adjusted {config : Config} {sim after : Simulator}
    (h : sim.SameSettings after) (sound : sim.Sound config.baseAddress) :
    sim.Adjusted config none after where
  sound := h.sound sound
  clock_eq := h.clock_eq
  ack_eq := by
    rw [ackEnabled, h.control_eq]
    rfl

variable {τ : Type} {relax : Simulator × τ → Simulator × τ}

/-- A hook that does nothing to the simulator but handle the bus. -/
def HandlesBus (relax : Simulator × τ → Simulator × τ) : Prop :=
  ∀ s, ∃ handlings : List Handling,
    (relax s).1 = handlings.foldl (fun sim handling => handling.onSimulator sim) s.1

theorem sameSettings_handled (handlings : List Handling) (sim : Simulator) :
    sim.SameSettings (handlings.foldl (fun sim handling => handling.onSimulator sim) sim) := by
  induction handlings generalizing sim with
  | nil => exact .refl sim
  | cons handling rest ih => exact (SameSettings.onSimulator sim handling).trans (ih _)

theorem HandlesBus.sameSettings (hook : HandlesBus relax) (s : Simulator × τ) :
    s.1.SameSettings (relax s).1 := by
  obtain ⟨handlings, hrelax⟩ := hook s
  rw [hrelax]
  exact sameSettings_handled handlings s.1

/-! ## Transactions -/

/-- From a sound state the settings are left as they are. -/
def LeavesSettings (base : UInt64) (s s' : Simulator × τ) : Prop :=
  s.1.Sound base → s.1.SameSettings s'.1

theorem transferSteps_leavesSettings (hook : HandlesBus relax) (base : UInt64) :
    TransferSteps ((hosted relax).window base) (LeavesSettings base) where
  refl s _ := .refl s.1
  trans h h' sound := (h sound).trans (h' ((h sound).sound sound))
  look s _ := .read s.1 _
  take s _ := .read s.1 _
  put byte s sound := by
    show s.1.SameSettings ((bare base).write dataOffset byte.toUInt32 s.1)
    rw [Simulator.write_data sound.base_eq]
    exact .writeData s.1 _
  relax s _ := hook.sameSettings s

/-- A transaction leaves the settings as they are, whatever it comes to. -/
theorem run_leavesSettings (hook : HandlesBus relax) (base : UInt64) (t : Transaction)
    (s : Simulator × τ) :
    LeavesSettings base s (t.run ((hosted relax).window base) s).2.2 := by
  refine (transferSteps_leavesSettings hook base).run (fun s sound => ?_) (fun s sound => ?_) t s
  · show s.1.SameSettings ((bare base).setBits controlOffset startBit s.1)
    rw [Simulator.setBits_start sound]
    exact ⟨rfl, rfl, rfl⟩
  · show s.1.SameSettings ((bare base).setBits controlOffset stopBit s.1)
    rw [Simulator.setBits_stop sound]
    exact ⟨rfl, rfl, rfl⟩

/-! ## Controllers -/

namespace Controller

/-- A controller goes on as it was configured, with the settings left as they are. -/
def Unadjusted (c c' : Controller (Simulator × τ)) : Prop :=
  c'.config = c.config ∧ LeavesSettings c.config.baseAddress c.bus c'.bus

theorem execute_unadjusted (hook : HandlesBus relax) (t : Transaction)
    (c : Controller (Simulator × τ)) : c.Unadjusted (c.execute (hosted relax) t).2.2 := by
  obtain ⟨journal, hexecute⟩ := execute_of_run (c := c) (t := t) (hosted relax) rfl
  rw [hexecute]
  exact ⟨rfl, run_leavesSettings hook c.config.baseAddress t c.bus⟩

theorem unadjusted_carried (hook : HandlesBus relax) :
    Carried (hosted relax) (Unadjusted (τ := τ)) where
  refl c := ⟨rfl, fun _ => .refl c.bus.1⟩
  trans {a b c} h h' := by
    obtain ⟨hconfig, hleaves⟩ := h
    obtain ⟨hconfig', hleaves'⟩ := h'
    rw [hconfig] at hleaves'
    exact ⟨hconfig'.trans hconfig,
      fun sound => (hleaves sound).trans (hleaves' ((hleaves sound).sound sound))⟩
  journal c _ := ⟨rfl, fun _ => .refl c.bus.1⟩
  readRegisterAt offset c := ⟨rfl, fun _ => .read c.bus.1 _⟩
  execute t c := execute_unadjusted hook t c
  retried t c _ := execute_unadjusted hook t c

variable {c c' : Controller (Simulator × τ)}

theorem Unadjusted.adjusted (h : c.Unadjusted c') (sound : c.bus.1.Sound c.config.baseAddress) :
    c'.config = c.config ∧ c.bus.1.Adjusted c.config none c'.bus.1 :=
  ⟨h.1, (h.2 sound).adjusted sound⟩

theorem adjust_adjusted (relax : Simulator × τ → Simulator × τ)
    (sound : c.bus.1.Sound c.config.baseAddress) (adjustment : Adjustment) :
    (c.adjust (hosted relax) adjustment).config = c.config ∧
      c.bus.1.Adjusted c.config (some adjustment) (c.adjust (hosted relax) adjustment).bus.1 := by
  refine ⟨by cases adjustment <;> rfl, ?_⟩
  cases adjustment with
  | started =>
    let clocked : Simulator := { c.bus.1 with clock := c.config.defaultSpeedHz }
    have hclocked : clocked.Sound c.config.baseAddress := sound.keep rfl rfl
    have hinit : (c.init (hosted relax)).bus.1 = { clocked with control := ackBit } := by
      show (bare c.config.baseAddress).setBits controlOffset ackBit
        ((bare c.config.baseAddress).write clockOffset c.config.defaultSpeedHz c.bus.1) = _
      rw [Simulator.write_clock sound.base_eq, Simulator.setBits_ack hclocked]
    have hset : (ackBit &&& ackBit != 0) = true := by decide
    rw [adjust, hinit]
    exact ⟨⟨sound.base_eq, .inr rfl⟩, rfl, hset⟩
  | stopped =>
    have hdeinit : (c.deinit (hosted relax)).bus.1 = { c.bus.1 with control := 0 } :=
      Simulator.clearBits_ack sound
    have hclear : (0 &&& ackBit != 0) = false := by decide
    rw [adjust, hdeinit]
    exact ⟨⟨sound.base_eq, .inl rfl⟩, rfl, hclear⟩
  | clocked hz =>
    have hset : (c.setSpeed (hosted relax) hz).bus.1 = { c.bus.1 with clock := hz } :=
      Simulator.write_clock sound.base_eq hz
    rw [adjust, hset]
    exact ⟨sound.keep rfl rfl, rfl, rfl⟩

/-- An operation adjusts what it says, and nothing else. -/
theorem perform_adjusted (hook : HandlesBus relax) (sound : c.bus.1.Sound c.config.baseAddress)
    (operation : Operation) :
    let after := (c.perform (hosted relax) operation).2
    after.config = c.config ∧ c.bus.1.Adjusted c.config operation.adjustment? after.bus.1 := by
  cases h : operation.adjustment? with
  | none =>
    exact ((unadjusted_carried hook).perform h
      (fun _ c => ⟨rfl, fun _ => .refl c.bus.1⟩) c).adjusted sound
  | some adjustment =>
    rw [perform_of_adjustment (hosted relax) h]
    exact adjust_adjusted relax sound adjustment

end Controller

/-! ## Devices -/

namespace Target

/-- What a call adjusts, if it adjusts anything. -/
def adjusts? : DriverCall → Option Adjustment
  | .init | .ioctl .reset _ => some .started
  | .deinit => some .stopped
  | .ioctl .setSpeed hz => some (.clocked hz)
  | _ => none

/-- A simulated controller that is driven at its base. -/
def Sound (target : Target (Simulator × τ)) : Prop :=
  target.simulator.Sound target.controller.config.baseAddress

/-- A target goes on as it was configured, and its simulated controller was adjusted. -/
structure Adjusted (adjustment : Option Adjustment) (target after : Target (Simulator × τ)) :
    Prop where
  config_eq : after.controller.config = target.controller.config
  simulator : target.simulator.Adjusted target.controller.config adjustment after.simulator

variable {target after : Target (Simulator × τ)}

theorem Adjusted.sound {adjustment : Option Adjustment} (h : Adjusted adjustment target after) :
    after.Sound := by
  rw [Sound, h.config_eq]
  exact h.simulator.sound

theorem Sound.refl (sound : target.Sound) : Adjusted none target target :=
  ⟨rfl, (SameSettings.refl _).adjusted sound⟩

/-- A call adjusts what it says, and it succeeds if it adjusts anything. -/
theorem carryOut_adjusted (hook : HandlesBus relax) (sound : target.Sound) (status : DeviceStatus)
    (call : DriverCall) :
    let (answer, reply) := (driver (hosted relax)).carryOut status target call
    Adjusted (adjusts? call) target reply.state ∧
      ((adjusts? call).isSome → answer.outcome = .ok ()) := by
  have hadjust (adjustment : Adjustment) :=
    Controller.adjust_adjusted relax sound adjustment
  have hexchange (payload : Payload) :=
    ((Controller.unadjusted_carried hook).exchangeWithRetries
      target.controller.config.maxRetries.toNat target.address.value payload
      target.controller).adjusted sound
  cases call with
  | init => exact ⟨⟨(hadjust .started).1, (hadjust .started).2⟩, fun _ => rfl⟩
  | deinit => exact ⟨⟨(hadjust .stopped).1, (hadjust .stopped).2⟩, fun _ => rfl⟩
  | read buffer => exact ⟨⟨(hexchange (.read buffer)).1, (hexchange (.read buffer)).2⟩, nofun⟩
  | write bytes => exact ⟨⟨(hexchange (.write bytes)).1, (hexchange (.write bytes)).2⟩, nofun⟩
  | ioctl command argument =>
    cases command with
    | reset => exact ⟨⟨(hadjust .started).1, (hadjust .started).2⟩, fun _ => rfl⟩
    | setSpeed =>
      exact ⟨⟨(hadjust (.clocked argument)).1, (hadjust (.clocked argument)).2⟩, fun _ => rfl⟩
    | enableIrq | disableIrq => exact ⟨⟨rfl, sound.refl.simulator⟩, nofun⟩

/-- What an operation of the device with its answer adjusted. A device that refuses an operation
leaves its controller alone. -/
def answered? (operation : DeviceOperation) (answer : DeviceAnswer) : Option Adjustment :=
  if answer.outcome.isOk then operation.call?.bind adjusts? else none

theorem answered?_eq {operation : DeviceOperation} {call : DriverCall} {answer : DeviceAnswer}
    (asks : operation.call? = some call)
    (h : (adjusts? call).isSome → answer.outcome = .ok ()) :
    answered? operation answer = adjusts? call := by
  rw [answered?, asks]
  cases hadjusts : adjusts? call with
  | none => simp [hadjusts]
  | some adjustment =>
    rw [hadjusts] at h
    rw [h rfl, Option.bind_some, hadjusts]
    rfl

theorem device_adjusted (hook : HandlesBus relax) (registers : Registers (Target (Simulator × τ)))
    {device : Device (Target (Simulator × τ))} (sound : device.state.Sound)
    (operation : DeviceOperation) :
    let (answer, after) := device.perform (driver (hosted relax)) registers operation
    Adjusted (answered? operation answer) device.state after.state := by
  cases asks : operation.call? with
  | none =>
    have hnone (answer : DeviceAnswer) : answered? operation answer = none := by
      rw [answered?, asks, Option.bind_none, ite_self]
    dsimp only
    rw [hnone]
    cases operation with
    | ioctl code argument =>
      have unknown := DeviceOperation.call?_ioctl_eq_none_iff.mp asks
      rw [Device.perform_unknown _ _ _ unknown]
      exact sound.refl
    | setIrq line => exact sound.refl
    | setControlWord word => exact sound.refl
    | storeStatus status => exact sound.refl
    | init | deinit | read buffer | write bytes => cases asks
  | some call =>
    rw [Device.perform_call _ _ _ asks]
    by_cases busy : device.status = .busy
    · have hnone : answered? operation (call.refusal .busy) = none := by
        rw [answered?]
        cases call <;> rfl
      rw [Device.conduct_busy _ _ busy]
      dsimp only
      rw [hnone]
      exact sound.refl
    · obtain ⟨hadjusted, hsucceeds⟩ :=
        carryOut_adjusted hook sound (call.seen device.status) call
      obtain ⟨journal, hconduct⟩ :=
        device.exists_conduct (driver (hosted relax)) (fun _ _ => rfl) busy call
      rw [hconduct]
      dsimp only
      rw [answered?_eq asks hsucceeds]
      exact hadjusted

end Target

/-! ## Runs -/

/-- What is done around a target: it is operated as a device, its controller is used itself, or
something happens on the bus. -/
inductive TargetOperation where
  | device (operation : DeviceOperation)
  | controller (operation : Operation)
  | bus (handling : Handling)

inductive TargetAnswer where
  | device (answer : DeviceAnswer)
  | controller (answer : Answer)
  | handled

namespace Target

/-- Carries out one operation. -/
def perform (hardware : Hardware (Simulator × τ)) (registers : Registers (Target (Simulator × τ)))
    (operation : TargetOperation) (device : Device (Target (Simulator × τ))) :
    TargetAnswer × Device (Target (Simulator × τ)) :=
  match operation with
  | .device operation =>
    let (answer, device) := device.perform (driver hardware) registers operation
    (.device answer, device)
  | .controller operation =>
    let (answer, controller) := device.state.controller.perform hardware operation
    (.controller answer, { device with state := { device.state with controller } })
  | .bus handling =>
    let controller := device.state.controller
    let bus := (handling.onSimulator controller.bus.1, controller.bus.2)
    (.handled, { device with state := { device.state with controller := { controller with bus } } })

/-- Carries out operations one after the other and answers them in order. -/
def run (hardware : Hardware (Simulator × τ)) (registers : Registers (Target (Simulator × τ))) :
    List TargetOperation → Device (Target (Simulator × τ)) →
    List TargetAnswer × Device (Target (Simulator × τ))
  | [], device => ([], device)
  | operation :: rest, device =>
    let (answer, device) := perform hardware registers operation device
    let (answers, device) := run hardware registers rest device
    (answer :: answers, device)

/-- What an operation with its answer adjusted. -/
def adjusted? : TargetOperation × TargetAnswer → Option Adjustment
  | (.device operation, .device answer) => answered? operation answer
  | (.controller operation, _) => operation.adjustment?
  | _ => none

/-- The clock rate after operations with their answers: that set last, or else the one found. -/
def clockAfter (config : Config) (found : UInt32)
    (history : List (TargetOperation × TargetAnswer)) : UInt32 :=
  latest (fun event => (adjusted? event).bind (·.clock? config)) found history

/-- Whether received bytes are acknowledged after operations with their answers. -/
def ackAfter (found : Bool) (history : List (TargetOperation × TargetAnswer)) : Bool :=
  latest (fun event => (adjusted? event).bind (·.ack?)) found history

variable {device : Device (Target (Simulator × τ))}

theorem perform_adjusted (hook : HandlesBus relax)
    (registers : Registers (Target (Simulator × τ))) (sound : device.state.Sound)
    (operation : TargetOperation) :
    ∃ answer after, perform (hosted relax) registers operation device = (answer, after) ∧
      Adjusted (adjusted? (operation, answer)) device.state after.state := by
  cases operation with
  | device operation => exact ⟨_, _, rfl, device_adjusted hook registers sound operation⟩
  | controller operation =>
    obtain ⟨hconfig, hadjusted⟩ := Controller.perform_adjusted hook sound operation
    exact ⟨_, _, rfl, hconfig, hadjusted⟩
  | bus handling => exact ⟨_, _, rfl, rfl, (SameSettings.onSimulator _ handling).adjusted sound⟩

theorem run_settings (hook : HandlesBus relax) (registers : Registers (Target (Simulator × τ)))
    (sound : device.state.Sound) (operations : List TargetOperation) :
    ∃ answers after, run (hosted relax) registers operations device = (answers, after) ∧
      after.state.Sound ∧
      after.state.simulator.clock = clockAfter device.state.controller.config
        device.state.simulator.clock (operations.zip answers) ∧
      after.state.simulator.ackEnabled =
        ackAfter device.state.simulator.ackEnabled (operations.zip answers) := by
  induction operations generalizing device with
  | nil => exact ⟨[], device, rfl, sound, rfl, rfl⟩
  | cons operation rest ih =>
    obtain ⟨answer, middle, hperform, hadjusted⟩ := perform_adjusted hook registers sound operation
    obtain ⟨answers, after, hrun, hsound, hclock, hack⟩ := ih hadjusted.sound
    refine ⟨answer :: answers, after, ?_, hsound, ?_, ?_⟩
    · simp only [run, hperform, hrun]
    · rw [hclock, hadjusted.config_eq, hadjusted.simulator.clock_eq, List.zip_cons_cons, clockAfter,
        clockAfter, latest_cons, latest_singleton]
    · rw [hack, hadjusted.simulator.ack_eq, List.zip_cons_cons, ackAfter, ackAfter, latest_cons,
        latest_singleton]

/-- **Clock and acknowledgment follow the adjustments alone.** Let a simulated controller, in any
reachable state, be used through its controller, through a device over it, or both, with the bus
handled in any way by the relax hook and in between. After every run the clock register holds what
the latest init, Reset or setting of the speed set, the default rate for an init or a Reset, and
received bytes are acknowledged exactly if the latest init, Reset or deinit was no deinit; without
any, both are as they were found. What a busy device refuses adjusts nothing, and neither does a
transaction, whatever it comes to. -/
theorem settings_latest (hook : HandlesBus relax) (registers : Registers (Target (Simulator × τ)))
    (device : Device (Target (Simulator × τ)))
    (reachable : Reachable device.state.controller.config.baseAddress device.state.simulator)
    (operations : List TargetOperation) :
    let ran := run (hosted relax) registers operations device
    let found := device.state.simulator
    let left := ran.2.state.simulator
    let history := operations.zip ran.1
    left.clock = clockAfter device.state.controller.config found.clock history ∧
    left.ackEnabled = ackAfter found.ackEnabled history ∧
    ∀ t : Transaction,
      let executed := (ran.2.state.controller.execute (hosted relax) t).2.2.bus.1
      executed.clock = left.clock ∧ executed.ackEnabled = left.ackEnabled := by
  obtain ⟨answers, after, hrun, hsound, hclock, hack⟩ :=
    run_settings hook registers reachable.sound operations
  dsimp only
  rw [hrun]
  refine ⟨hclock, hack, fun t => ?_⟩
  obtain ⟨-, hadjusted⟩ :=
    (Controller.execute_unadjusted hook t after.state.controller).adjusted hsound
  exact ⟨hadjusted.clock_eq, hadjusted.ack_eq⟩

/-- A hook that refuses the next opening byte whenever it is called, a write on a held bus, a rate
that is no standard one, and a Reset that the device is too busy for. -/
theorem settings_latest_refused :
    let relax : Simulator × Nat → Simulator × Nat := fun s =>
      ((Handling.nackNext 1).onSimulator s.1, s.2 + 1)
    let registers : Registers (Target (Simulator × Nat)) :=
      { read := fun _ target => (0, target), write := fun _ _ target => target }
    let sim := (Handling.attach 0x50).applied (Simulator.create defaultBase)
    let target : Target (Simulator × Nat) :=
      { controller := .create { timeoutBudget := 2, maxRetries := 2 } (sim, 0)
        address := ⟨0x50, by decide⟩ }
    let operations : List TargetOperation :=
      [.device .init, .bus (.holdBus 3), .device (.write [0x10, 7]),
        .controller (.command (.speed 12345)), .controller .deinit, .device (.storeStatus .busy),
        .device (.ioctl DeviceCommand.reset.code 0)]
    let device := Device.create defaultBase target
    let ran := run (hosted relax) registers operations device
    HandlesBus relax ∧ Reachable defaultBase sim ∧ 0 < ran.2.state.controller.bus.2 ∧
      ran.2.state.simulator.clock = 12345 ∧ ran.2.state.simulator.ackEnabled = false := by
  intro relax registers sim target operations device ran
  have hook : HandlesBus relax := fun s => ⟨[.nackNext 1], rfl⟩
  have reachable : Reachable defaultBase sim := .handle (.attach 0x50) .create
  obtain ⟨hclock, hack, -⟩ := settings_latest hook registers device reachable operations
  refine ⟨hook, reachable, by decide +kernel, hclock.trans ?_, hack.trans ?_⟩
  · decide +kernel
  · decide +kernel

end Target

end Firmware.I2c
