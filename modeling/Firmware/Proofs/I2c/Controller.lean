/-
  Firmware: what the operations of a controller come to, in terms of the transactions that they
  run. Notes only add to the journal.
-/
import Firmware.I2c.Controller

namespace Firmware.I2c

/-- What a controller answers to a transaction: a failed one has run out of its budget. -/
def Outcome.answer (outcome : Outcome) : Except Error Unit :=
  outcome.mapError fun _ => .timeout

/-- How many START conditions a transaction generates, and as many STOP conditions. -/
def Outcome.conditions : Outcome → Nat
  | .error .busFree => 0
  | _ => 1

/-- How many waits of a transaction ran out. -/
def Outcome.failures : Outcome → Nat
  | .ok _ => 0
  | .error _ => 1

namespace Statistics

variable (statistics : Statistics) (outcome : Outcome)

theorem transactions_count :
    (statistics.count outcome).transactions = statistics.transactions + 1 := by
  cases outcome with
  | ok _ => rfl
  | error phase => cases phase <;> rfl

theorem starts_count :
    (statistics.count outcome).starts = statistics.starts + outcome.conditions := by
  cases outcome with
  | ok _ => rfl
  | error phase => cases phase <;> rfl

theorem stops_count :
    (statistics.count outcome).stops = statistics.stops + outcome.conditions := by
  cases outcome with
  | ok _ => rfl
  | error phase => cases phase <;> rfl

theorem timeouts_count :
    (statistics.count outcome).timeouts = statistics.timeouts + outcome.failures := by
  cases outcome with
  | ok _ => rfl
  | error phase => cases phase <;> rfl

theorem retries_count : (statistics.count outcome).retries = statistics.retries := by
  cases outcome with
  | ok _ => rfl
  | error phase => cases phase <;> rfl

end Statistics

namespace Controller

variable {σ : Type} {hardware : Hardware σ} {c : Controller σ}

@[simp] theorem note_bus (c : Controller σ) (n : BusNote) : (c.note n).bus = c.bus := rfl

@[simp] theorem window_note (c : Controller σ) (n : BusNote) (hardware : Hardware σ) :
    (c.note n).window hardware = c.window hardware := rfl

variable (hardware)

/-- A controller answers, counts and leaves behind what the run of the transaction came to. -/
theorem execute_of_run {t : Transaction} {outcome : Outcome} {payload : Payload} {bus : σ}
    (h : t.run (c.window hardware) c.bus = (outcome, payload, bus)) :
    ∃ journal, c.execute hardware t = (outcome.answer, payload,
      { config := c.config, bus, statistics := c.statistics.count outcome, journal }) := by
  cases outcome with
  | ok _ =>
    refine ⟨(c.note (.began t.payload.direction t.address t.payload.length)).journal, ?_⟩
    simp only [execute, window_note, note_bus, h]
    rfl
  | error phase =>
    refine ⟨((c.note (.began t.payload.direction t.address t.payload.length)).note
      (.ranOut phase)).journal, ?_⟩
    simp only [execute, window_note, note_bus, h]
    rfl

theorem answer_execute (t : Transaction) (c : Controller σ) :
    (c.execute hardware t).1 = (t.run (c.window hardware) c.bus).1.answer := by
  cases hrun : t.run (c.window hardware) c.bus with
  | mk outcome rest =>
    obtain ⟨_, hexecute⟩ := execute_of_run hardware hrun
    rw [hexecute]

theorem statistics_execute (t : Transaction) (c : Controller σ) :
    (c.execute hardware t).2.2.statistics =
      c.statistics.count (t.run (c.window hardware) c.bus).1 := by
  cases hrun : t.run (c.window hardware) c.bus with
  | mk outcome rest =>
    obtain ⟨_, hexecute⟩ := execute_of_run hardware hrun
    rw [hexecute]

/-- The transaction that an exchange with an address makes. -/
def exchanged (c : Controller σ) (address : Address) (payload : Payload) : Transaction :=
  { address, payload, budget := c.config.timeoutBudget.toNat }

theorem ofByte_value (address : Address) : Address.ofByte address.value = .ok address := by
  rw [Address.ofByte, dif_pos address.le_highest]

theorem value_of_ofByte {value : UInt8} {address : Address}
    (h : Address.ofByte value = .ok address) : address.value = value := by
  rw [Address.ofByte] at h
  split at h
  · cases h
    rfl
  · cases h

/-- An exchange with a 7-bit address is its transaction. -/
theorem exchange_of_run {address : Address} {payload payload' : Payload} {outcome : Outcome}
    {bus : σ}
    (h : (c.exchanged address payload).run (c.window hardware) c.bus = (outcome, payload', bus)) :
    ∃ journal, c.exchange hardware address.value payload = (outcome.answer, payload',
      { config := c.config, bus, statistics := c.statistics.count outcome, journal }) := by
  obtain ⟨journal, hexecute⟩ := execute_of_run hardware h
  rw [exchanged] at hexecute
  cases outcome with
  | ok _ =>
    refine ⟨journal, ?_⟩
    simp only [exchange, ofByte_value, hexecute]
    rfl
  | error phase =>
    refine ⟨journal.add (BusNote.exchangeFailed payload'.direction address).record, ?_⟩
    simp only [exchange, ofByte_value, hexecute]
    rfl

/-! ## Attempts -/

variable {address : Address} {payload payload' : Payload} {bus : σ}

theorem attempts_of_ok (limit remaining : Nat)
    (h : (c.exchanged address payload).run (c.window hardware) c.bus = (.ok (), payload', bus)) :
    ∃ journal, c.attempts hardware limit address.value (remaining + 1) payload =
      (.ok (), payload',
        { config := c.config, bus, statistics := c.statistics.count (.ok ()), journal }) := by
  obtain ⟨journal, hexchange⟩ := exchange_of_run hardware h
  refine ⟨journal, ?_⟩
  rw [attempts, hexchange]
  rfl

/-- After a failed attempt the others follow; it counts as a retry if there are any. -/
theorem attempts_of_error (limit remaining : Nat) {phase : Phase}
    (h : (c.exchanged address payload).run (c.window hardware) c.bus =
      (.error phase, payload', bus)) :
    ∃ c' : Controller σ, c.attempts hardware limit address.value (remaining + 1) payload =
        c'.attempts hardware limit address.value remaining payload' ∧
      c'.config = c.config ∧ c'.bus = bus ∧
      c'.statistics =
        if remaining = 0 then c.statistics.count (.error phase)
        else (c.statistics.count (.error phase)).countRetry := by
  obtain ⟨journal, hexchange⟩ := exchange_of_run hardware h
  rw [attempts, hexchange]
  refine ⟨_, rfl, ?_⟩
  split <;> exact ⟨rfl, rfl, rfl⟩

theorem exchangeWithRetries_zero (c : Controller σ) (address : Address) (payload : Payload) :
    c.exchangeWithRetries hardware 0 address.value payload =
      (.error .failed, payload, c.note .noAttempts) := by
  rw [exchangeWithRetries, ofByte_value]
  rfl

theorem exchangeWithRetries_pos {limit : Nat} (hlimit : 0 < limit) (c : Controller σ)
    (address : Address) (payload : Payload) :
    c.exchangeWithRetries hardware limit address.value payload =
      c.attempts hardware limit address.value limit payload := by
  rw [exchangeWithRetries, ofByte_value]
  exact if_neg (by omega)

/-! ## Registers of peripherals, and scans -/

variable {register value : UInt8} {c₁ : Controller σ}

/-- A register that could be named is read next. -/
theorem readRegister_of_ok (h : c.send hardware value [register] = (.ok (), c₁)) :
    (c.readRegister hardware value register).2 = (c₁.receive hardware value [0]).2.2 := by
  rw [readRegister, h]
  dsimp only
  generalize c₁.receive hardware value [0] = received
  obtain ⟨result, buffer, c₂⟩ := received
  cases result <;> rfl

/-- One that could not is not. -/
theorem readRegister_of_error {e : Error} (h : c.send hardware value [register] = (.error e, c₁)) :
    (c.readRegister hardware value register).2 = c₁ := by
  rw [readRegister, h]

/-- A scan probes every address and notes how many answered. -/
theorem scan_snd (c : Controller σ) : (c.scan hardware).2 =
    (c.probe hardware Address.all).2.note (.found (c.probe hardware Address.all).1.length) := by
  unfold scan
  generalize c.probe hardware Address.all = probed
  rfl

end Controller

end Firmware.I2c
