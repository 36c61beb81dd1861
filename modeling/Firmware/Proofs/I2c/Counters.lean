/-
  Firmware: the counters of a controller over whole runs, on any hardware. They are read against
  the account of the run, which is computed from the operations without a controller: step by step
  the controller moves the same hardware, and counts what the account lists.
-/
import Firmware.Proofs.I2c.Accounts
import Firmware.Proofs.I2c.Operations
import Firmware.Proofs.I2c.Outcomes

namespace Firmware.I2c

/-! ## What the counters tell of a list of outcomes -/

/-- The phase in which a transaction failed. -/
def Outcome.failedPhase : Outcome → Option Phase
  | .ok _ => none
  | .error phase => some phase

/-- The phases in which transactions failed, the earliest first. -/
def failedPhases (outcomes : List Outcome) : List Phase := outcomes.filterMap Outcome.failedPhase

theorem failedPhases_append_ok (outcomes : List Outcome) :
    failedPhases (outcomes ++ [.ok ()]) = failedPhases outcomes := by
  rw [failedPhases, List.filterMap_append]
  exact List.append_nil _

theorem failedPhases_append_error (outcomes : List Outcome) (phase : Phase) :
    failedPhases (outcomes ++ [.error phase]) = failedPhases outcomes ++ [phase] := by
  rw [failedPhases, List.filterMap_append]
  rfl

theorem length_failedPhases_le (outcomes : List Outcome) :
    (failedPhases outcomes).length ≤ outcomes.length := List.length_filterMap_le _ _

/-- The counters are those of transactions with certain outcomes. -/
structure Statistics.Tally (statistics : Statistics) (outcomes : List Outcome) : Prop where
  transactions : statistics.transactions = outcomes.length
  starts : statistics.starts + (failedPhases outcomes).count .busFree = outcomes.length
  stops : statistics.stops = statistics.starts
  timeouts : statistics.timeouts = (failedPhases outcomes).length
  retries : statistics.retries ≤ statistics.timeouts
  lastFailure : statistics.lastFailure = (failedPhases outcomes).getLast?
  /-- Nothing is waited for in setting START or STOP. -/
  waited : ∀ phase ∈ failedPhases outcomes, phase ≠ .start ∧ phase ≠ .stop

namespace Statistics

variable {statistics : Statistics} {outcomes : List Outcome}

theorem tally_nil : Tally {} [] where
  transactions := rfl
  starts := rfl
  stops := rfl
  timeouts := rfl
  retries := Nat.le_refl 0
  lastFailure := rfl
  waited := nofun

theorem lastFailure_count_error (statistics : Statistics) (phase : Phase) :
    (statistics.count (.error phase)).lastFailure = some phase := rfl

theorem Tally.succeed (tally : statistics.Tally outcomes) :
    (statistics.count (.ok ())).Tally (outcomes ++ [.ok ()]) := by
  obtain ⟨htransactions, hstarts, hstops, htimeouts, hretries, hlast, hwaited⟩ := tally
  constructor
  · rw [transactions_count, htransactions, List.length_append]
    rfl
  · rw [starts_count, failedPhases_append_ok, List.length_append, ← hstarts]
    exact Nat.add_right_comm ..
  · rw [stops_count, starts_count, hstops]
  · rw [timeouts_count, failedPhases_append_ok, htimeouts]
    rfl
  · rw [retries_count, timeouts_count]
    exact hretries
  · rw [failedPhases_append_ok]
    exact hlast
  · rw [failedPhases_append_ok]
    exact hwaited

theorem Tally.fail (tally : statistics.Tally outcomes) {phase : Phase}
    (hphase : phase ≠ .start ∧ phase ≠ .stop) :
    (statistics.count (.error phase)).Tally (outcomes ++ [.error phase]) := by
  obtain ⟨htransactions, hstarts, hstops, htimeouts, hretries, hlast, hwaited⟩ := tally
  constructor
  · rw [transactions_count, htransactions, List.length_append]
    rfl
  · -- Either there was a START, or there is one more failure in the wait for a free bus.
    have hone : Outcome.conditions (.error phase) + [phase].count .busFree = 1 := by
      cases phase <;> rfl
    rw [starts_count, failedPhases_append_error, List.count_append, List.length_append, ← hstarts]
    simp only [List.length_singleton]
    omega
  · rw [stops_count, starts_count, hstops]
  · rw [timeouts_count, failedPhases_append_error, htimeouts, List.length_append]
    rfl
  · rw [retries_count, timeouts_count]
    exact Nat.le_succ_of_le hretries
  · rw [lastFailure_count_error, failedPhases_append_error, List.getLast?_concat]
  · rw [failedPhases_append_error]
    intro failed hmem
    rcases List.mem_append.mp hmem with hmem | hmem
    · exact hwaited failed hmem
    · rw [List.mem_singleton.mp hmem]
      exact hphase

/-- A failure that is counted as retried: it is one more timeout, so retries stay behind. -/
theorem Tally.retry (tally : statistics.Tally outcomes) {phase : Phase}
    (hphase : phase ≠ .start ∧ phase ≠ .stop) :
    (statistics.count (.error phase)).countRetry.Tally (outcomes ++ [.error phase]) := by
  have hretries : (statistics.count (.error phase)).retries + 1 ≤
      (statistics.count (.error phase)).timeouts := by
    rw [retries_count, timeouts_count]
    exact Nat.succ_le_succ tally.retries
  obtain ⟨htransactions, hstarts, hstops, htimeouts, -, hlast, hwaited⟩ := tally.fail hphase
  exact ⟨htransactions, hstarts, hstops, htimeouts, hretries, hlast, hwaited⟩

end Statistics

/-! ## Controllers and their accounts -/

namespace Controller

variable {σ : Type} {hardware : Hardware σ} {config : Config} {c : Controller σ} {a : Account σ}

/-- A controller has the hardware of an account and counts what is entered there. -/
structure Accounted (config : Config) (c : Controller σ) (a : Account σ) : Prop where
  config_eq : c.config = config
  bus_eq : c.bus = a.bus
  tally : c.statistics.Tally a.outcomes

theorem accounted_create (config : Config) (bus : σ) :
    Accounted config (create config bus) { bus } where
  config_eq := rfl
  bus_eq := rfl
  tally := Statistics.tally_nil

/-- An attempt with a payload that is alike comes to the same, and its payload is alike again. -/
theorem exchanged_alike {address : Address} {first payload payload' : Payload} {s bus : σ}
    {outcome : Outcome}
    (h : (c.config.exchange address first).run hardware s = (outcome, payload', bus))
    (alike : first.Alike payload) :
    ∃ moved, first.Alike moved ∧
      (c.exchanged address payload).run hardware s = (outcome, moved, bus) := by
  obtain ⟨moved, hrun⟩ := run_congr hardware (c.config.exchange address first) alike s
  rw [h] at hrun
  have hrun : (c.exchanged address payload).run hardware s = (outcome, moved, bus) := hrun
  have halike := run_alike hardware (c.exchanged address payload) s
  rw [hrun] at halike
  exact ⟨moved, alike.trans halike, hrun⟩

namespace Accounted

theorem window_eq (h : Accounted config c a) (hardware : Hardware σ) :
    c.window hardware = hardware.window config.baseAddress :=
  congrArg (fun config : Config => hardware.window config.baseAddress) h.config_eq

/-- Notes make no difference. -/
theorem journal (h : Accounted config c a) (journal : Journal) :
    Accounted config { c with journal } a :=
  ⟨h.config_eq, h.bus_eq, h.tally⟩

/-! ## Transactions -/

variable {t : Transaction} {outcome : Outcome} {payload : Payload} {bus : σ}

/-- A transaction on the hardware of the controller is one on that of the account. -/
theorem run_eq (h : Accounted config c a)
    (hrun : t.run (c.window hardware) c.bus = (outcome, payload, bus)) :
    t.run (hardware.window config.baseAddress) a.bus = (outcome, payload, bus) := by
  rw [← h.window_eq, ← h.bus_eq]
  exact hrun

/-- A transaction is counted as it is entered. -/
theorem count (h : Accounted config c a)
    (hrun : t.run (c.window hardware) c.bus = (outcome, payload, bus)) (journal : Journal) :
    Accounted config
      { config := c.config, bus, statistics := c.statistics.count outcome, journal }
      (a.enter outcome bus) := by
  refine ⟨h.config_eq, rfl, ?_⟩
  cases outcome with
  | ok _ => exact h.tally.succeed
  | error phase =>
    exact h.tally.fail (run_waited (c.window hardware) t c.bus (congrArg Prod.fst hrun))

/-- A failed transaction is entered once, also if it is counted as retried. -/
theorem countRetry (h : Accounted config c a) {phase : Phase}
    (hrun : t.run (c.window hardware) c.bus = (.error phase, payload, bus)) (journal : Journal) :
    Accounted config
      { config := c.config, bus, statistics := (c.statistics.count (.error phase)).countRetry,
        journal }
      (a.enter (.error phase) bus) :=
  ⟨h.config_eq, rfl,
    h.tally.retry (run_waited (c.window hardware) t c.bus (congrArg Prod.fst hrun))⟩

theorem execute (h : Accounted config c a)
    (hrun : t.run (c.window hardware) c.bus = (outcome, payload, bus)) :
    Accounted config (c.execute hardware t).2.2 (a.enter outcome bus) := by
  obtain ⟨journal, hexecute⟩ := execute_of_run hardware hrun
  rw [hexecute]
  exact h.count hrun journal

/-! ## Exchanges -/

variable (hardware)

theorem exchange (h : Accounted config c a) (address : UInt8) (payload : Payload)
    (goesOn : Outcome → Bool) :
    Accounted config (c.exchange hardware address payload).2.2
      (a.enterAll (hardware.window config.baseAddress) goesOn
        (config.attempts 1 address payload)) := by
  obtain rfl := h.config_eq
  cases haddress : Address.ofByte address with
  | error e =>
    rw [Controller.exchange, Config.attempts, haddress]
    exact h
  | ok address' =>
    rcases hrun : (c.config.exchange address' payload).run (c.window hardware) c.bus with
      ⟨outcome, payload', bus⟩
    obtain ⟨journal, hexchange⟩ := exchange_of_run hardware hrun
    rw [← value_of_ofByte haddress, hexchange, Config.attempts, ofByte_value]
    dsimp only
    rw [List.replicate_one, Account.enterAll_singleton goesOn (h.run_eq hrun)]
    exact h.count hrun journal

theorem send (h : Accounted config c a) (address : UInt8) (bytes : List UInt8)
    (goesOn : Outcome → Bool) :
    Accounted config (c.send hardware address bytes).2
      (a.enterAll (hardware.window config.baseAddress) goesOn
        (config.attempts 1 address (.write bytes))) :=
  h.exchange hardware address (.write bytes) goesOn

theorem receive (h : Accounted config c a) (address : UInt8) (buffer : List UInt8)
    (goesOn : Outcome → Bool) :
    Accounted config (c.receive hardware address buffer).2.2
      (a.enterAll (hardware.window config.baseAddress) goesOn
        (config.attempts 1 address (.read buffer))) :=
  h.exchange hardware address (.read buffer) goesOn

/-- Each attempt is entered, up to the first success. The payload that an attempt is made with is
alike to the first one, so it comes to the same. -/
theorem attempts (limit : Nat) (address : Address) (first : Payload) (remaining : Nat)
    {payload : Payload} (h : Accounted config c a) (alike : first.Alike payload) :
    Accounted config (c.attempts hardware limit address.value remaining payload).2.2
      (a.enterAll (hardware.window config.baseAddress) (fun outcome => !outcome.isOk)
        (List.replicate remaining (config.exchange address first))) := by
  induction remaining generalizing payload c a with
  | zero => exact h
  | succ remaining ih =>
    obtain rfl := h.config_eq
    rcases hrun : (c.config.exchange address first).run (c.window hardware) c.bus with
      ⟨outcome, payload', bus⟩
    obtain ⟨moved, halike, hattempt⟩ := exchanged_alike hrun alike
    rw [List.replicate_succ]
    cases outcome with
    | ok _ =>
      obtain ⟨journal, hattempts⟩ := attempts_of_ok hardware limit remaining hattempt
      rw [hattempts, Account.enterAll_cons_last (h.run_eq hrun) rfl]
      exact h.count hrun journal
    | error phase =>
      obtain ⟨c', hattempts, hconfig, hbus, hstatistics⟩ :=
        attempts_of_error hardware limit remaining hattempt
      rw [hattempts, Account.enterAll_cons_next (h.run_eq hrun) rfl]
      refine ih ⟨hconfig, hbus, ?_⟩ halike
      rw [hstatistics]
      split
      · exact (h.count hrun c.journal).tally
      · exact (h.countRetry hrun c.journal).tally

theorem exchangeWithRetries (h : Accounted config c a) (limit : Nat) (address : UInt8)
    (payload : Payload) :
    Accounted config (c.exchangeWithRetries hardware limit address payload).2.2
      (a.enterAll (hardware.window config.baseAddress) (fun outcome => !outcome.isOk)
        (config.attempts limit address payload)) := by
  cases haddress : Address.ofByte address with
  | error e =>
    rw [Controller.exchangeWithRetries, Config.attempts, haddress]
    exact h
  | ok address' =>
    rw [← value_of_ofByte haddress, Config.attempts, ofByte_value]
    rcases Nat.eq_zero_or_pos limit with rfl | hlimit
    · rw [exchangeWithRetries_zero]
      exact h.journal _
    · rw [exchangeWithRetries_pos hardware hlimit]
      exact attempts hardware limit address' payload limit h (.refl payload)

/-- A register is read behind the transaction that names it, if that succeeded. -/
theorem readRegister (h : Accounted config c a) (address register : UInt8) :
    Accounted config (c.readRegister hardware address register).2
      (a.enterAll (hardware.window config.baseAddress) Except.isOk
        (config.attempts 1 address (.write [register]) ++
          config.attempts 1 address (.read [0]))) := by
  obtain rfl := h.config_eq
  cases haddress : Address.ofByte address with
  | error e =>
    rw [Controller.readRegister, Controller.send, Controller.exchange, Config.attempts,
      Config.attempts, haddress]
    exact h
  | ok address' =>
    rcases hrun : (c.config.exchange address' (.write [register])).run (c.window hardware) c.bus
      with ⟨outcome, payload', bus⟩
    obtain ⟨journal, hexchange⟩ := exchange_of_run hardware hrun
    have hsend : c.send hardware address [register] = (outcome.answer,
        { config := c.config, bus, statistics := c.statistics.count outcome, journal }) := by
      rw [Controller.send, ← value_of_ofByte haddress, hexchange]
    have hattempts (payload : Payload) :
        c.config.attempts 1 address payload = [c.config.exchange address' payload] := by
      rw [Config.attempts, haddress]
      rfl
    rw [hattempts (.write [register]), List.singleton_append]
    cases outcome with
    | error phase =>
      rw [readRegister_of_error hardware hsend, Account.enterAll_cons_last (h.run_eq hrun) rfl]
      exact h.count hrun journal
    | ok _ =>
      rw [readRegister_of_ok hardware hsend, Account.enterAll_cons_next (h.run_eq hrun) rfl]
      exact (h.count hrun journal).receive hardware address [0] Except.isOk

/-! ## Scans -/

theorem probe (addresses : List Address) (h : Accounted config c a) :
    Accounted config (c.probe hardware addresses).2
      (a.enterAll (hardware.window config.baseAddress) (fun _ => true)
        (addresses.map config.probe)) := by
  induction addresses generalizing c a with
  | nil => exact h
  | cons address rest ih =>
    obtain rfl := h.config_eq
    rcases hrun : (c.config.probe address).run (c.window hardware) c.bus with
      ⟨outcome, payload, bus⟩
    rw [List.map_cons, Account.enterAll_cons_next (h.run_eq hrun) rfl]
    exact ih (h.execute hrun)

theorem scan (h : Accounted config c a) :
    Accounted config (c.scan hardware).2
      (a.enterAll (hardware.window config.baseAddress) (fun _ => true)
        (Address.all.map config.probe)) := by
  rw [scan_snd]
  exact (h.probe hardware Address.all).journal _

/-! ## Operations -/

/-- Every operation does to the controller what is entered of it. -/
theorem perform (h : Accounted config c a) (operation : Operation) :
    Accounted config (c.perform hardware operation).2 (a.perform hardware config operation) := by
  obtain rfl := h.config_eq
  have hbus := congrArg (operation.touch (c.window hardware) c.config) h.bus_eq
  cases operation with
  | init | deinit | setSpeed _ | readRegisterAt _ | dumpRegisters => exact ⟨rfl, hbus, h.tally⟩
  | send address bytes => exact h.send hardware address bytes _
  | receive address buffer => exact h.receive hardware address buffer _
  | sendWithRetries address bytes limit =>
    exact h.exchangeWithRetries hardware limit address (.write bytes)
  | receiveWithRetries address buffer limit =>
    exact h.exchangeWithRetries hardware limit address (.read buffer)
  | writeRegister address register value => exact h.send hardware address [register, value] _
  | readRegister address register => exact h.readRegister hardware address register
  | scan =>
    rw [perform_scan]
    exact h.scan hardware
  | execute t =>
    rcases hrun : t.run (c.window hardware) c.bus with ⟨outcome, payload, bus⟩
    have hentered := h.execute hrun
    rw [← Account.enterAll_singleton (fun _ => true) (h.run_eq hrun)] at hentered
    exact hentered
  | resetStatistics => exact ⟨rfl, h.bus_eq, Statistics.tally_nil⟩
  | command command =>
    cases command with
    | registers | speed _ | statistics => exact ⟨rfl, hbus, h.tally⟩
    | scan =>
      rw [perform_command, command_scan]
      exact h.scan hardware
    | read address register => exact h.readRegister hardware address register
    | write address register value => exact h.send hardware address [register, value] _

/-- So does every run of operations. -/
theorem run (h : Accounted config c a) (operations : List Operation) :
    Accounted config (c.run hardware operations).2 (a.run hardware config operations) := by
  induction operations generalizing c a with
  | nil => exact h
  | cons operation rest ih => exact ih (h.perform hardware operation)

end Accounted

/-! ## The counters of every run -/

/-- **The counters are consistent.** On any hardware, with any relax hook, a transaction answers
an error exactly if it ran out of some wait. Every run of operations from a new controller moves the
hardware as its account does, and counts what the account lists of the transactions since the
counters were last zeroed: as many STOPs as STARTs, and the transactions without them are those that
failed in the wait for a free bus; timeouts are the transactions that failed, and retries are no
more than these; the last failure is the phase of the latest transaction that failed, there is none
exactly if no timeout is counted, and it is never the setting of START or STOP. -/
theorem counters_consistent (hardware : Hardware σ) :
    (∀ (c : Controller σ) (t : Transaction),
      (c.execute hardware t).1 = (t.run (c.window hardware) c.bus).1.answer) ∧
    ∀ (config : Config) (bus : σ) (operations : List Operation),
      let c := ((create config bus).run hardware operations).2
      let account := Account.run hardware config operations { bus }
      let failed := failedPhases account.outcomes
      c.bus = account.bus ∧
      c.statistics.transactions = account.outcomes.length ∧
      c.statistics.stops = c.statistics.starts ∧
      c.statistics.starts ≤ c.statistics.transactions ∧
      c.statistics.transactions - c.statistics.starts = failed.count .busFree ∧
      c.statistics.timeouts = failed.length ∧
      c.statistics.transactions - c.statistics.starts ≤ c.statistics.timeouts ∧
      c.statistics.timeouts ≤ c.statistics.transactions ∧
      c.statistics.retries ≤ c.statistics.timeouts ∧
      c.statistics.lastFailure = failed.getLast? ∧
      (c.statistics.lastFailure = none ↔ c.statistics.timeouts = 0) ∧
      c.statistics.lastFailure ≠ some .start ∧ c.statistics.lastFailure ≠ some .stop := by
  refine ⟨fun c t => answer_execute hardware t c, fun config bus operations => ?_⟩
  intro c account failed
  have accounted : Accounted config c account :=
    (accounted_create config bus).run hardware operations
  obtain ⟨htransactions, -, hstops, htimeouts, hretries, hlast, hwaited⟩ := accounted.tally
  have hstarts : c.statistics.starts + failed.count .busFree = account.outcomes.length :=
    accounted.tally.starts
  have hfailures : c.statistics.timeouts = failed.length := htimeouts
  have hheld : failed.count .busFree ≤ failed.length := List.count_le_length
  have hfailed : failed.length ≤ account.outcomes.length := length_failedPhases_le _
  refine ⟨accounted.bus_eq, htransactions, hstops, by omega, by omega, htimeouts, by omega,
    by omega, hretries, hlast, ?_, fun h => ?_, fun h => ?_⟩
  · rw [hlast, htimeouts, List.getLast?_eq_none_iff, List.length_eq_zero_iff]
  · exact (hwaited _ (List.mem_of_getLast? (hlast ▸ h))).1 rfl
  · exact (hwaited _ (List.mem_of_getLast? (hlast ▸ h))).2 rfl

/-- Where every register reads as zero no opening byte gets through: of the attempts behind the
reset three fail, and two of them are followed by another. -/
example :
    let hardware : Hardware Unit := .spinning { read := fun _ s => (0, s), write := fun _ _ s => s }
    let config : Config := { timeoutBudget := 2 }
    let operations : List Operation :=
      [.send 0x50 [1], .resetStatistics, .sendWithRetries 0x50 [1] 3, .sendWithRetries 0x90 [1] 3]
    (Account.run hardware config operations { bus := () }).outcomes =
        List.replicate 3 (.error .addressPhase) ∧
      ((create config ()).run hardware operations).2.statistics =
        { transactions := 3, starts := 3, stops := 3, timeouts := 3, retries := 2,
          lastFailure := some .addressPhase } :=
  ⟨rfl, rfl⟩

end Controller

end Firmware.I2c
