/-
  Firmware: the account of a run, kept without a controller. An operation makes certain
  transactions one after the other, on the hardware as the earlier ones left it, and may break off
  behind one of them; apart from that it only touches a few registers. The account lists what the
  transactions came to since the counters were last zeroed. It holds no counter itself.
-/
import Firmware.I2c.Operation

namespace Firmware.I2c

/-! ## What an operation does to the hardware -/

namespace Config

/-- The transaction that moves a payload. -/
def exchange (config : Config) (address : Address) (payload : Payload) : Transaction where
  address := address
  payload := payload
  budget := config.timeoutBudget.toNat

/-- The attempts to move a payload; there are none at an address of more than seven bits. -/
def attempts (config : Config) (limit : Nat) (address : UInt8) (payload : Payload) :
    List Transaction :=
  match Address.ofByte address with
  | .error _ => []
  | .ok address => List.replicate limit (config.exchange address payload)

/-- The empty write that probes an address. -/
def probe (config : Config) (address : Address) : Transaction where
  address := address
  payload := .write []
  budget := config.scanTimeoutBudget.toNat

end Config

namespace Operation

variable {σ : Type}

/-- The transactions of an operation, all of them if it does not break off. -/
def transactions (config : Config) : Operation → List Transaction
  | .send address bytes => config.attempts 1 address (.write bytes)
  | .receive address buffer => config.attempts 1 address (.read buffer)
  | .sendWithRetries address bytes limit => config.attempts limit address (.write bytes)
  | .receiveWithRetries address buffer limit => config.attempts limit address (.read buffer)
  | .writeRegister address register value | .command (.write address register value) =>
    config.attempts 1 address (.write [register, value])
  | .readRegister address register | .command (.read address register) =>
    config.attempts 1 address (.write [register]) ++ config.attempts 1 address (.read [0])
  | .scan | .command .scan => Address.all.map config.probe
  | .execute transaction => [transaction]
  | .init | .deinit | .setSpeed _ | .command (.speed _) => []
  | .readRegisterAt _ | .dumpRegisters | .command .registers => []
  | .resetStatistics | .command .statistics => []

/-- Whether an operation goes on to its next transaction behind one that came to an outcome.
Attempts end with the first success, and a register that could not be named is not read. -/
def goesOn : Operation → Outcome → Bool
  | .sendWithRetries .. | .receiveWithRetries .. => fun outcome => !outcome.isOk
  | .readRegister .. | .command (.read ..) => Except.isOk
  | _ => fun _ => true

/-- How an operation touches the hardware apart from its transactions. -/
def touch (registers : Hardware σ) (config : Config) : Operation → σ → σ
  | .init, bus =>
    registers.setBits controlOffset ackBit (registers.write clockOffset config.defaultSpeedHz bus)
  | .deinit, bus => registers.clearBits controlOffset ackBit bus
  | .setSpeed hz, bus | .command (.speed hz), bus => registers.write clockOffset hz bus
  | .readRegisterAt offset, bus => (registers.read offset bus).2
  | .dumpRegisters, bus | .command .registers, bus =>
    (registers.read clockOffset
      (registers.read controlOffset (registers.read statusOffset bus).2).2).2
  | _, bus => bus

end Operation

/-! ## Accounts -/

/-- Hardware, and what the transactions on it came to, the earliest first. -/
structure Account (σ : Type) where
  bus : σ
  outcomes : List Outcome := []

namespace Account

variable {σ : Type}

/-- Enters what a transaction came to. -/
def enter (outcome : Outcome) (bus : σ) (a : Account σ) : Account σ where
  bus := bus
  outcomes := a.outcomes ++ [outcome]

/-- Runs transactions one after the other and enters them, up to one behind which it does not go
on. -/
def enterAll (registers : Hardware σ) (goesOn : Outcome → Bool) :
    List Transaction → Account σ → Account σ
  | [], a => a
  | t :: rest, a =>
    let (outcome, _, bus) := t.run registers a.bus
    let entered := a.enter outcome bus
    if goesOn outcome then enterAll registers goesOn rest entered else entered

/-- Enters an operation. To zero the counters is to forget the outcomes so far. -/
def perform (hardware : Hardware σ) (config : Config) (operation : Operation) (a : Account σ) :
    Account σ :=
  match operation with
  | .resetStatistics => { a with outcomes := [] }
  | operation =>
    let registers := hardware.window config.baseAddress
    let touched := { a with bus := operation.touch registers config a.bus }
    touched.enterAll registers operation.goesOn (operation.transactions config)

/-- Enters operations one after the other. -/
def run (hardware : Hardware σ) (config : Config) : List Operation → Account σ → Account σ
  | [], a => a
  | operation :: rest, a => run hardware config rest (a.perform hardware config operation)

/-! ## Entering transactions -/

variable {registers : Hardware σ} {goesOn : Outcome → Bool} {t : Transaction} {a : Account σ}
  {outcome : Outcome} {payload : Payload} {bus : σ}

theorem enterAll_nil (a : Account σ) : a.enterAll registers goesOn [] = a := rfl

/-- Behind a transaction that lets it go on, the others are entered. -/
theorem enterAll_cons_next (h : t.run registers a.bus = (outcome, payload, bus))
    (next : goesOn outcome = true) (rest : List Transaction) :
    a.enterAll registers goesOn (t :: rest) =
      (a.enter outcome bus).enterAll registers goesOn rest := by
  rw [enterAll, h]
  exact if_pos next

/-- Behind a transaction that does not, none is. -/
theorem enterAll_cons_last (h : t.run registers a.bus = (outcome, payload, bus))
    (last : goesOn outcome = false) (rest : List Transaction) :
    a.enterAll registers goesOn (t :: rest) = a.enter outcome bus := by
  rw [enterAll, h]
  exact if_neg (by rw [last]; exact Bool.false_ne_true)

/-- A transaction that is alone is entered in any case. -/
theorem enterAll_singleton (goesOn : Outcome → Bool)
    (h : t.run registers a.bus = (outcome, payload, bus)) :
    a.enterAll registers goesOn [t] = a.enter outcome bus := by
  cases hgoes : goesOn outcome with
  | true => rw [enterAll_cons_next h hgoes, enterAll_nil]
  | false => exact enterAll_cons_last h hgoes []

end Account

end Firmware.I2c
