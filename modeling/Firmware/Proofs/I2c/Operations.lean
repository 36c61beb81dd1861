/-
  Firmware: how a property of a controller is carried over whole runs. Every operation is made of
  transactions, adjustments and looks at registers, of notes and of counting a failed transaction as
  retried; a relation between the controller before and after that holds of these, and of nothing
  happening, and that can be chained, holds of every operation and of every run. Operations that
  adjust nothing need no more than the rest.
-/
import Firmware.I2c.Operation
import Firmware.Proofs.I2c.Controller

namespace Firmware.I2c

/-- How a controller is adjusted, apart from its transactions. -/
inductive Adjustment where
  /-- The default clock rate, with received bytes acknowledged. -/
  | started
  /-- Received bytes are not acknowledged. -/
  | stopped
  | clocked (hz : UInt32)
  deriving DecidableEq

/-- What an operation adjusts, if it adjusts anything. -/
def Operation.adjustment? : Operation → Option Adjustment
  | .init => some .started
  | .deinit => some .stopped
  | .setSpeed hz | .command (.speed hz) => some (.clocked hz)
  | _ => none

namespace Controller

variable {σ : Type} {hardware : Hardware σ} {R : Controller σ → Controller σ → Prop}

/-- Adjusts a controller. -/
def adjust (hardware : Hardware σ) (c : Controller σ) : Adjustment → Controller σ
  | .started => c.init hardware
  | .stopped => c.deinit hardware
  | .clocked hz => c.setSpeed hardware hz

theorem perform_of_adjustment (hardware : Hardware σ) {operation : Operation}
    {adjustment : Adjustment} (h : operation.adjustment? = some adjustment) (c : Controller σ) :
    (c.perform hardware operation).2 = c.adjust hardware adjustment := by
  unfold Operation.adjustment? at h
  split at h <;> cases h <;> rfl

/-- A scan leaves the same controller behind, however it is asked for. -/
theorem perform_scan (hardware : Hardware σ) (c : Controller σ) :
    (c.perform hardware .scan).2 = (c.scan hardware).2 := by
  unfold perform
  dsimp only

theorem perform_command (hardware : Hardware σ) (command : Console.Command) (c : Controller σ) :
    (c.perform hardware (.command command)).2 = (command.run hardware c).2 := by
  unfold perform
  dsimp only

theorem command_scan (hardware : Hardware σ) (c : Controller σ) :
    (Console.Command.scan.run hardware c).2 = (c.scan hardware).2 := by
  unfold Console.Command.run
  dsimp only

/-- The relation holds of all that operations are made of but adjustments, and it can be chained. -/
structure Carried (hardware : Hardware σ) (R : Controller σ → Controller σ → Prop) : Prop where
  refl c : R c c
  trans {a b c} : R a b → R b c → R a c
  journal c journal : R c { c with journal }
  readRegisterAt offset c : R c (c.readRegisterAt hardware offset).2
  execute t c : R c (c.execute hardware t).2.2
  /-- A transaction is made again only if it failed. -/
  retried t c : (c.execute hardware t).1 ≠ .ok () → R c
    { (c.execute hardware t).2.2 with
      statistics := (c.execute hardware t).2.2.statistics.countRetry }

/-- The relation holds of all that operations are made of, and it can be chained. -/
structure Closed (hardware : Hardware σ) (R : Controller σ → Controller σ → Prop) : Prop
    extends Carried hardware R where
  init c : R c (c.init hardware)
  deinit c : R c (c.deinit hardware)
  setSpeed hz c : R c (c.setSpeed hardware hz)

namespace Carried

theorem note (carried : Carried hardware R) (n : BusNote) (c : Controller σ) : R c (c.note n) :=
  carried.journal c _

/-! ## Exchanges -/

theorem exchange (carried : Carried hardware R) (address : UInt8) (payload : Payload)
    (c : Controller σ) : R c (c.exchange hardware address payload).2.2 := by
  unfold Controller.exchange
  cases Address.ofByte address with
  | error e => exact carried.refl c
  | ok address =>
    have h := carried.execute { address, payload, budget := c.config.timeoutBudget.toNat } c
    dsimp only
    generalize c.execute hardware _ = executed at h ⊢
    obtain ⟨result, payload, c'⟩ := executed
    cases result with
    | ok _ => exact h
    | error e => exact carried.trans h (carried.note _ c')

theorem attempts (carried : Carried hardware R) (limit : Nat) (address : Address) (remaining : Nat)
    (payload : Payload) (c : Controller σ) :
    R c (c.attempts hardware limit address.value remaining payload).2.2 := by
  induction remaining generalizing payload c with
  | zero => exact carried.refl c
  | succ remaining ih =>
    have hexecute := carried.execute (c.exchanged address payload) c
    have hretried := carried.retried (c.exchanged address payload) c
    cases hrun : (c.exchanged address payload).run (c.window hardware) c.bus with
    | mk outcome rest =>
    obtain ⟨payload', bus⟩ := rest
    obtain ⟨_, hexecuted⟩ := execute_of_run hardware hrun
    rw [hexecuted] at hexecute hretried
    cases outcome with
    | ok _ =>
      obtain ⟨journal, hattempts⟩ := attempts_of_ok hardware limit remaining hrun
      rw [hattempts]
      exact carried.trans hexecute (carried.journal _ journal)
    | error phase =>
      obtain ⟨c', hattempts, hconfig, hbus, hstatistics⟩ :=
        attempts_of_error hardware limit remaining hrun
      rw [hattempts]
      refine carried.trans ?_ (ih payload' c')
      obtain ⟨config, bus', statistics, journal⟩ := c'
      dsimp only at hconfig hbus hstatistics
      subst hconfig hbus hstatistics
      split
      · exact carried.trans hexecute (carried.journal _ journal)
      · exact carried.trans (hretried nofun) (carried.journal _ journal)

theorem exchangeWithRetries (carried : Carried hardware R) (limit : Nat) (address : UInt8)
    (payload : Payload) (c : Controller σ) :
    R c (c.exchangeWithRetries hardware limit address payload).2.2 := by
  unfold Controller.exchangeWithRetries
  cases haddress : Address.ofByte address with
  | error e => exact carried.refl c
  | ok address' =>
    dsimp only
    split
    · exact carried.note _ c
    · rw [← value_of_ofByte haddress]
      exact carried.attempts limit address' limit payload c

theorem send (carried : Carried hardware R) (address : UInt8) (bytes : List UInt8)
    (c : Controller σ) : R c (c.send hardware address bytes).2 :=
  carried.exchange address (.write bytes) c

theorem receive (carried : Carried hardware R) (address : UInt8) (buffer : List UInt8)
    (c : Controller σ) : R c (c.receive hardware address buffer).2.2 :=
  carried.exchange address (.read buffer) c

theorem readRegister (carried : Carried hardware R) (address register : UInt8) (c : Controller σ) :
    R c (c.readRegister hardware address register).2 := by
  have hcarried := carried.send address [register] c
  rcases hsend : c.send hardware address [register] with ⟨result, c₁⟩
  rw [hsend] at hcarried
  cases result with
  | error e =>
    rw [readRegister_of_error hardware hsend]
    exact hcarried
  | ok _ =>
    rw [readRegister_of_ok hardware hsend]
    exact carried.trans hcarried (carried.receive address [0] c₁)

/-! ## Scans -/

theorem probe (carried : Carried hardware R) (addresses : List Address) (c : Controller σ) :
    R c (c.probe hardware addresses).2 := by
  induction addresses generalizing c with
  | nil => exact carried.refl c
  | cons address rest ih =>
    exact carried.trans
      (carried.execute
        { address, payload := .write [], budget := c.config.scanTimeoutBudget.toNat } c)
      (ih _)

theorem scan (carried : Carried hardware R) (c : Controller σ) : R c (c.scan hardware).2 := by
  rw [scan_snd]
  exact carried.trans (carried.probe Address.all c) (carried.note _ _)

/-! ## The console -/

theorem dumpRegisters (carried : Carried hardware R) (c : Controller σ) :
    R c (Console.dumpRegisters hardware c).2 := by
  have hstatus := carried.readRegisterAt statusOffset c
  unfold Console.dumpRegisters
  generalize c.readRegisterAt hardware statusOffset = looked at hstatus ⊢
  obtain ⟨status, c₁⟩ := looked
  have hcontrol := carried.readRegisterAt controlOffset c₁
  dsimp only
  generalize c₁.readRegisterAt hardware controlOffset = looked at hcontrol ⊢
  obtain ⟨control, c₂⟩ := looked
  have hclock := carried.readRegisterAt clockOffset c₂
  dsimp only
  generalize c₂.readRegisterAt hardware clockOffset = looked at hclock ⊢
  obtain ⟨clock, c₃⟩ := looked
  exact carried.trans hstatus (carried.trans hcontrol (carried.trans hclock (carried.journal c₃ _)))

theorem command (carried : Carried hardware R) {command : Console.Command}
    (hspeed : ∀ hz, command ≠ .speed hz) (c : Controller σ) : R c (command.run hardware c).2 := by
  cases command with
  | registers => exact carried.dumpRegisters c
  | scan =>
    rw [command_scan]
    exact carried.scan c
  | read address register => exact carried.readRegister address register c
  | write address register value => exact carried.send address [register, value] c
  | speed hz => exact absurd rfl (hspeed hz)
  | statistics => exact carried.refl c

/-! ## Operations -/

/-- The relation holds of every operation that adjusts nothing, of a reset of the counters if it is
known to. -/
theorem perform (carried : Carried hardware R) {operation : Operation}
    (hadjusts : operation.adjustment? = none)
    (hreset : operation = .resetStatistics → ∀ c : Controller σ, R c c.resetStatistics)
    (c : Controller σ) : R c (c.perform hardware operation).2 := by
  cases operation with
  | init | deinit | setSpeed hz => cases hadjusts
  | send address bytes => exact carried.send address bytes c
  | receive address buffer => exact carried.receive address buffer c
  | sendWithRetries address bytes limit =>
    exact carried.exchangeWithRetries limit address (.write bytes) c
  | receiveWithRetries address buffer limit =>
    exact carried.exchangeWithRetries limit address (.read buffer) c
  | writeRegister address register value => exact carried.send address [register, value] c
  | readRegister address register => exact carried.readRegister address register c
  | scan =>
    rw [perform_scan]
    exact carried.scan c
  | execute transaction => exact carried.execute transaction c
  | resetStatistics => exact hreset rfl c
  | readRegisterAt offset => exact carried.readRegisterAt offset c
  | dumpRegisters => exact carried.dumpRegisters c
  | command command =>
    refine carried.command (fun hz hspeed => ?_) c
    subst hspeed
    cases hadjusts

end Carried

namespace Closed

theorem perform (closed : Closed hardware R) {operation : Operation}
    (hreset : operation = .resetStatistics → ∀ c : Controller σ, R c c.resetStatistics)
    (c : Controller σ) : R c (c.perform hardware operation).2 := by
  cases hadjusts : operation.adjustment? with
  | none => exact closed.toCarried.perform hadjusts hreset c
  | some adjustment =>
    rw [perform_of_adjustment hardware hadjusts]
    cases adjustment with
    | started => exact closed.init c
    | stopped => exact closed.deinit c
    | clocked hz => exact closed.setSpeed hz c

/-- The relation holds of every run, of one with resets if it holds of a reset. -/
theorem run (closed : Closed hardware R) (operations : List Operation)
    (hreset : .resetStatistics ∈ operations → ∀ c : Controller σ, R c c.resetStatistics)
    (c : Controller σ) : R c (c.run hardware operations).2 := by
  induction operations generalizing c with
  | nil => exact closed.refl c
  | cons operation rest ih =>
    have hperform := closed.perform
      (fun h => hreset (List.mem_cons.mpr (.inl h.symm))) c
    exact closed.trans hperform (ih (fun h => hreset (List.mem_cons_of_mem _ h)) _)

end Closed

end Controller

end Firmware.I2c
