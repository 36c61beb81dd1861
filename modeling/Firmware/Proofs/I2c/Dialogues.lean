/-
  Firmware: what a controller says to its hardware, request by request. How it goes on depends on
  the two flags of a status word, on the lowest byte of a data word and on all of a control word.
  Work that is such a dialogue, one and the same on all hardware, depends on nothing else.
-/
import Firmware.I2c.Operation
import Mathlib.Tactic.Choose

namespace Firmware.I2c

variable {α β γ : Type}

/-- A dialogue with hardware in the window of a controller. -/
inductive Dialogue (α : Type) where
  | done (answer : α)
  /-- Reads the status and goes on with its flags. -/
  | look (next : StatusFlags → Dialogue α)
  /-- Reads a data word and goes on with its lowest byte. -/
  | take (next : UInt8 → Dialogue α)
  /-- Reads the control register. -/
  | consult (next : UInt32 → Dialogue α)
  | write (offset : UInt64) (word : UInt32) (next : Dialogue α)
  /-- Calls the hook. -/
  | relax (next : Dialogue α)

namespace Dialogue

/-- Holds a dialogue with hardware in a state. -/
def run {σ : Type} (hardware : Hardware σ) : Dialogue α → σ → α × σ
  | .done answer, s => (answer, s)
  | .look next, s =>
    (next (.ofWord (hardware.read statusOffset s).1)).run hardware (hardware.read statusOffset s).2
  | .take next, s =>
    (next (hardware.read dataOffset s).1.toUInt8).run hardware (hardware.read dataOffset s).2
  | .consult next, s =>
    (next (hardware.read controlOffset s).1).run hardware (hardware.read controlOffset s).2
  | .write offset word next, s => next.run hardware (hardware.write offset word s)
  | .relax next, s => next.run hardware (hardware.relax s)

/-- One dialogue, and then another one that depends on what the first one came to. -/
def bind (then' : α → Dialogue β) : Dialogue α → Dialogue β
  | .done answer => then' answer
  | .look next => .look fun flags => (next flags).bind then'
  | .take next => .take fun byte => (next byte).bind then'
  | .consult next => .consult fun word => (next word).bind then'
  | .write offset word next => .write offset word (next.bind then')
  | .relax next => .relax (next.bind then')

theorem run_bind {σ : Type} (hardware : Hardware σ) (then' : α → Dialogue β) (d : Dialogue α)
    (s : σ) : (d.bind then').run hardware s =
      (then' (d.run hardware s).1).run hardware (d.run hardware s).2 := by
  induction d generalizing s with
  | done answer => rfl
  | look next ih => exact ih _ _
  | take next ih => exact ih _ _
  | consult next ih => exact ih _ _
  | write offset word next ih => exact ih _
  | relax next ih => exact ih _

end Dialogue

/-! ## Work in a window -/

/-- An answer of two parts, as one. -/
def paired (x : α × β × γ) : (α × β) × γ := ((x.1, x.2.1), x.2.2)

theorem eq_of_paired {x : α × β × γ} {y : (α × β) × γ} (h : paired x = y) :
    x = (y.1.1, y.1.2, y.2) := by
  subst h
  rfl

/-- Work on hardware in the window of a controller is one dialogue, whatever states the hardware
has. -/
def IsDialogue (work : (σ : Type) → Hardware σ → σ → α × σ) : Prop :=
  ∃ d : Dialogue α, ∀ σ hardware s, work σ hardware s = d.run hardware s

namespace IsDialogue

variable {work : (σ : Type) → Hardware σ → σ → α × σ}

theorem pure (answer : α) : IsDialogue fun _ _ s => (answer, s) :=
  ⟨.done answer, fun _ _ _ => rfl⟩

theorem write (h : IsDialogue work) (offset : UInt64) (word : UInt32) :
    IsDialogue fun σ hardware s => work σ hardware (hardware.write offset word s) := by
  obtain ⟨d, hd⟩ := h
  exact ⟨.write offset word d, fun σ hardware s => hd σ hardware _⟩

/-- A read-modify-write of the control register. -/
theorem modify (h : IsDialogue work) (f : UInt32 → UInt32) :
    IsDialogue fun σ hardware s => work σ hardware (hardware.modify controlOffset f s) := by
  obtain ⟨d, hd⟩ := h
  exact ⟨.consult fun word => .write controlOffset (f word) d, fun σ hardware s => hd σ hardware _⟩

/-- A byte of data is read. -/
theorem take (next : UInt8 → (σ : Type) → Hardware σ → σ → α × σ)
    (hnext : ∀ byte, IsDialogue (next byte)) :
    IsDialogue fun σ hardware s =>
      next (hardware.read dataOffset s).1.toUInt8 σ hardware (hardware.read dataOffset s).2 := by
  choose d hd using hnext
  exact ⟨.take d, fun σ hardware s => hd _ σ hardware _⟩

theorem bind {first : (σ : Type) → Hardware σ → σ → α × σ}
    {work : (σ : Type) → Hardware σ → σ → β × σ}
    {next : α → (σ : Type) → Hardware σ → σ → β × σ} (hfirst : IsDialogue first)
    (hwork : ∀ {σ} (hardware : Hardware σ) {s a s'}, first σ hardware s = (a, s') →
      work σ hardware s = next a σ hardware s')
    (hnext : ∀ a, IsDialogue (next a)) : IsDialogue work := by
  obtain ⟨d, hd⟩ := hfirst
  choose e he using hnext
  refine ⟨d.bind e, fun σ hardware s => ?_⟩
  rw [Dialogue.run_bind, ← hd, ← he]
  exact hwork hardware rfl

theorem bindPair {first : (σ : Type) → Hardware σ → σ → α × β × σ}
    {work : (σ : Type) → Hardware σ → σ → γ × σ}
    {next : α → β → (σ : Type) → Hardware σ → σ → γ × σ}
    (hfirst : IsDialogue fun σ hardware s => paired (first σ hardware s))
    (hwork : ∀ {σ} (hardware : Hardware σ) {s a b s'}, first σ hardware s = (a, b, s') →
      work σ hardware s = next a b σ hardware s')
    (hnext : ∀ a b, IsDialogue (next a b)) : IsDialogue work :=
  hfirst.bind (fun hardware _ _ _ h => hwork hardware (eq_of_paired h)) fun a => hnext a.1 a.2

end IsDialogue

/-! ## Transactions -/

/-- Looks at the status until `ready` holds of its flags, and calls the hook after each look that
it does not. -/
def Dialogue.await (ready : StatusFlags → Bool) :
    (remaining attempt : Nat) → Dialogue (Except Error Nat)
  | 0, _ => .done (.error .timeout)
  | remaining + 1, attempt => .look fun flags =>
    if ready flags then .done (.ok attempt) else .relax (await ready remaining (attempt + 1))

theorem awaitStatus_isDialogue (budget : Nat) (ready : StatusFlags → Bool) :
    IsDialogue fun _ hardware => awaitStatus hardware budget ready := by
  refine ⟨.await ready budget 1, fun σ hardware s => ?_⟩
  unfold awaitStatus pollUntil
  generalize 1 = attempt
  induction budget generalizing attempt s with
  | zero => rfl
  | succ budget ih =>
    simp only [pollFrom, Dialogue.await, Dialogue.run]
    cases hready : ready (.ofWord (hardware.read statusOffset s).1) with
    | true => rfl
    | false => exact ih _ (attempt + 1)

theorem sendByte_isDialogue (budget : Nat) (byte : UInt8) :
    IsDialogue fun _ hardware => sendByte hardware budget byte :=
  (awaitStatus_isDialogue budget _).write dataOffset byte.toUInt32

theorem sendBytes_isDialogue (budget : Nat) (bytes : List UInt8) :
    IsDialogue fun _ hardware s => sendBytes hardware budget bytes s := by
  induction bytes with
  | nil => exact .pure _
  | cons byte rest ih =>
    refine (sendByte_isDialogue budget byte).bind (fun hardware s a s' h => by rw [sendBytes, h]) ?_
    rintro (_ | _)
    · exact .pure _
    · exact ih

theorem fillBuffer_isDialogue (budget : Nat) (buffer : List UInt8) :
    IsDialogue fun _ hardware s => paired (fillBuffer hardware budget buffer s) := by
  induction buffer with
  | nil => exact .pure ((.ok (), []) : Outcome × List UInt8)
  | cons old rest ih =>
    refine (awaitStatus_isDialogue budget _).bind
      (fun hardware s a s' h => by rw [fillBuffer, awaitDone, h]) ?_
    rintro (_ | _)
    · exact .pure ((.error .dataPhase, old :: rest) : Outcome × List UInt8)
    · refine .take (fun byte _ hardware s =>
        let filled := fillBuffer hardware budget rest s
        ((filled.1, byte :: filled.2.1), filled.2.2)) fun byte => ?_
      exact ih.bindPair (fun hardware s a b s' h => by rw [h]) fun a b => .pure (a, byte :: b)

theorem moveData_isDialogue (budget : Nat) (payload : Payload) :
    IsDialogue fun _ hardware s => paired (moveData hardware budget payload s) := by
  cases payload with
  | write bytes =>
    exact (sendBytes_isDialogue budget bytes).bind
      (fun hardware s a s' h => by rw [moveData, h]; rfl) fun _ => .pure (_, _)
  | read buffer =>
    exact (fillBuffer_isDialogue budget buffer).bindPair
      (fun hardware s a b s' h => by rw [moveData, h]; rfl) fun _ _ => .pure (_, _)

theorem transfer_isDialogue (t : Transaction) :
    IsDialogue fun _ hardware s => paired (t.transfer hardware s) := by
  refine (sendByte_isDialogue t.budget _).bind
    (fun hardware s a s' h => by rw [Transaction.transfer, h]) ?_
  rintro (_ | _)
  · exact .pure (_, _)
  · exact moveData_isDialogue t.budget t.payload

theorem run_isDialogue (t : Transaction) :
    IsDialogue fun _ hardware s => paired (t.run hardware s) := by
  refine (awaitStatus_isDialogue t.budget _).bind
    (fun hardware s a s' h => by rw [Transaction.run, awaitFree, h]) ?_
  rintro (_ | _)
  · exact .pure (_, _)
  · have htransfer : IsDialogue fun _ hardware s =>
        let transferred := t.transfer hardware s
        ((transferred.1, transferred.2.1),
          hardware.setBits controlOffset stopBit transferred.2.2) :=
      (transfer_isDialogue t).bindPair (fun hardware s a b s' h => by rw [h]; rfl)
        fun a b => (IsDialogue.pure (a, b)).modify (· ||| stopBit)
    exact htransfer.modify (· ||| startBit)

/-! ## Work of a controller -/

/-- Whether an operation answers registers as they read. -/
def Operation.isRaw : Operation → Bool
  | .readRegisterAt _ | .dumpRegisters | .command .registers => true
  | _ => false

namespace Controller

/-- What a dialogue comes to: its answer, and the controller with what was counted and noted. -/
def concluded {σ : Type} (config : Config) (x : (α × Statistics × Journal) × σ) :
    α × Controller σ :=
  (x.1.1, { config, bus := x.2, statistics := x.1.2.1, journal := x.1.2.2 })

/-- Work of a controller with a configuration is one dialogue in its window, whatever states the
hardware has. What was counted and noted before may matter to it. -/
def Conducted (config : Config) (work : (σ : Type) → Hardware σ → Controller σ → α × Controller σ) :
    Prop :=
  ∀ statistics journal, ∃ d : Dialogue (α × Statistics × Journal), ∀ σ (hardware : Hardware σ) bus,
    work σ hardware { config, bus, statistics, journal } =
      concluded config (d.run (hardware.window config.baseAddress) bus)

namespace Conducted

variable {config : Config} {work : (σ : Type) → Hardware σ → Controller σ → α × Controller σ}

theorem pure (answer : α) : Conducted config fun _ _ c => (answer, c) :=
  fun statistics journal => ⟨.done (answer, statistics, journal), fun _ _ _ => rfl⟩

/-- Counting and noting come before. -/
theorem adjust (h : Conducted config work) (f : Statistics → Statistics) (g : Journal → Journal) :
    Conducted config fun σ hardware c =>
      work σ hardware { c with statistics := f c.statistics, journal := g c.journal } :=
  fun statistics journal => h (f statistics) (g journal)

theorem note (h : Conducted config work) (n : BusNote) :
    Conducted config fun σ hardware c => work σ hardware (c.note n) :=
  h.adjust id (·.add n.record)

theorem write (h : Conducted config work) (offset : UInt64) (word : UInt32) :
    Conducted config fun σ hardware c =>
      work σ hardware { c with bus := (c.window hardware).write offset word c.bus } := by
  intro statistics journal
  obtain ⟨d, hd⟩ := h statistics journal
  exact ⟨.write offset word d, fun σ hardware bus => hd σ hardware _⟩

/-- A read-modify-write of the control register comes before. -/
theorem modify (h : Conducted config work) (f : UInt32 → UInt32) :
    Conducted config fun σ hardware c =>
      work σ hardware { c with bus := (c.window hardware).modify controlOffset f c.bus } := by
  intro statistics journal
  obtain ⟨d, hd⟩ := h statistics journal
  exact ⟨.consult fun word => .write controlOffset (f word) d,
    fun σ hardware bus => hd σ hardware _⟩

theorem ofBus {onBus : (σ : Type) → Hardware σ → σ → α × σ} (h : IsDialogue onBus) :
    Conducted config fun σ hardware c =>
      ((onBus σ (c.window hardware) c.bus).1,
        { c with bus := (onBus σ (c.window hardware) c.bus).2 }) := by
  intro statistics journal
  obtain ⟨d, hd⟩ := h
  refine ⟨d.bind fun answer => .done (answer, statistics, journal), fun σ hardware bus => ?_⟩
  rw [Dialogue.run_bind, ← hd]
  rfl

theorem bind {first : (σ : Type) → Hardware σ → Controller σ → α × Controller σ}
    {work : (σ : Type) → Hardware σ → Controller σ → β × Controller σ}
    {next : α → (σ : Type) → Hardware σ → Controller σ → β × Controller σ}
    (hfirst : Conducted config first)
    (hwork : ∀ {σ} (hardware : Hardware σ) {c a c'}, c.config = config →
      first σ hardware c = (a, c') → work σ hardware c = next a σ hardware c')
    (hnext : ∀ a, Conducted config (next a)) : Conducted config work := by
  intro statistics journal
  obtain ⟨d, hd⟩ := hfirst statistics journal
  choose e he using hnext
  refine ⟨d.bind fun x => e x.1 x.2.1 x.2.2, fun σ hardware bus => ?_⟩
  rw [Dialogue.run_bind, ← he]
  exact hwork hardware rfl (hd σ hardware bus)

theorem bindPair {first : (σ : Type) → Hardware σ → Controller σ → α × β × Controller σ}
    {work : (σ : Type) → Hardware σ → Controller σ → γ × Controller σ}
    {next : α → β → (σ : Type) → Hardware σ → Controller σ → γ × Controller σ}
    (hfirst : Conducted config fun σ hardware c => paired (first σ hardware c))
    (hwork : ∀ {σ} (hardware : Hardware σ) {c a b c'}, c.config = config →
      first σ hardware c = (a, b, c') → work σ hardware c = next a b σ hardware c')
    (hnext : ∀ a b, Conducted config (next a b)) : Conducted config work :=
  hfirst.bind (fun hardware _ _ _ hconfig h => hwork hardware hconfig (eq_of_paired h))
    fun a => hnext a.1 a.2

end Conducted

variable {config : Config}

/-- A transaction that is over is counted, and noted if a wait of it ran out. -/
def conclude {σ : Type} (outcome : Outcome) (payload : Payload) (c : Controller σ) :
    Except Error Unit × Payload × Controller σ :=
  let c := { c with statistics := c.statistics.count outcome }
  match outcome with
  | .ok () => (.ok (), payload, c)
  | .error phase => (.error .timeout, payload, c.note (.ranOut phase))

theorem conclude_conducted (outcome : Outcome) (payload : Payload) :
    Conducted config fun _ _ c => paired (c.conclude outcome payload) := by
  cases outcome with
  | ok _ => exact (Conducted.pure (_, _)).adjust (·.count (.ok ())) id
  | error phase =>
    exact ((Conducted.pure (_, _)).note (.ranOut phase)).adjust (·.count (.error phase)) id

theorem execute_conducted (t : Transaction) :
    Conducted config fun _ hardware c => paired (c.execute hardware t) := by
  have hrun : Conducted config fun _ hardware c =>
      ((paired (t.run (c.window hardware) c.bus)).1,
        { c with bus := (paired (t.run (c.window hardware) c.bus)).2 }) :=
    .ofBus (run_isDialogue t)
  have hexecute : Conducted config fun _ hardware c =>
      let ran := t.run (c.window hardware) c.bus
      paired ({ c with bus := ran.2.2 }.conclude ran.1 ran.2.1) :=
    hrun.bind (fun hardware c a c' _ h => by cases h; rfl)
      fun ended => conclude_conducted ended.1 ended.2
  exact hexecute.note (.began t.payload.direction t.address t.payload.length)

theorem exchange_conducted (address : UInt8) (payload : Payload) :
    Conducted config fun _ hardware c => paired (c.exchange hardware address payload) := by
  cases haddress : Address.ofByte address with
  | error e =>
    simp only [exchange, haddress]
    exact .pure (_, _)
  | ok address' =>
    refine (execute_conducted ⟨address', payload, config.timeoutBudget.toNat⟩).bindPair
      (fun hardware c a b c' hconfig h => by
        rw [exchange, haddress]
        dsimp only
        rw [hconfig, h]) ?_
    rintro (_ | _) payload
    · exact (Conducted.pure (_, _)).note _
    · exact .pure (_, _)

theorem attempts_conducted (limit : Nat) (address : UInt8) (remaining : Nat) (payload : Payload) :
    Conducted config fun _ hardware c =>
      paired (c.attempts hardware limit address remaining payload) := by
  induction remaining generalizing payload with
  | zero => exact .pure (_, _)
  | succ remaining ih =>
    refine (exchange_conducted address payload).bindPair
      (fun hardware c a b c' _ h => by rw [attempts, h]) ?_
    rintro (e | _) payload
    · by_cases hlast : remaining = 0
      · simp only [if_pos hlast]
        exact (ih payload).note _
      · simp only [if_neg hlast]
        exact ((ih payload).adjust Statistics.countRetry id).note _
    · exact .pure (_, _)

theorem exchangeWithRetries_conducted (limit : Nat) (address : UInt8) (payload : Payload) :
    Conducted config fun _ hardware c =>
      paired (c.exchangeWithRetries hardware limit address payload) := by
  unfold exchangeWithRetries
  cases Address.ofByte address with
  | error e => exact .pure (_, _)
  | ok address' =>
    by_cases hlimit : limit = 0
    · simp only [if_pos hlimit]
      exact (Conducted.pure (_, _)).note .noAttempts
    · simp only [if_neg hlimit]
      exact attempts_conducted limit address limit payload

theorem send_conducted (address : UInt8) (bytes : List UInt8) :
    Conducted config fun _ hardware c => c.send hardware address bytes :=
  (exchange_conducted address (.write bytes)).bindPair
    (fun hardware c a b c' _ h => by rw [send, h]) fun _ _ => .pure _

theorem receive_conducted (address : UInt8) (buffer : List UInt8) :
    Conducted config fun _ hardware c => paired (c.receive hardware address buffer) :=
  (exchange_conducted address (.read buffer)).bindPair
    (fun hardware c a b c' _ h => by rw [receive, h]; rfl) fun _ _ => .pure (_, _)

theorem sendWithRetries_conducted (address : UInt8) (bytes : List UInt8) (limit : Nat) :
    Conducted config fun _ hardware c => c.sendWithRetries hardware address bytes limit :=
  (exchangeWithRetries_conducted limit address (.write bytes)).bindPair
    (fun hardware c a b c' _ h => by rw [sendWithRetries, h]) fun _ _ => .pure _

theorem receiveWithRetries_conducted (address : UInt8) (buffer : List UInt8) (limit : Nat) :
    Conducted config fun _ hardware c =>
      paired (c.receiveWithRetries hardware address buffer limit) :=
  (exchangeWithRetries_conducted limit address (.read buffer)).bindPair
    (fun hardware c a b c' _ h => by rw [receiveWithRetries, h]; rfl) fun _ _ => .pure (_, _)

theorem readRegister_conducted (address register : UInt8) :
    Conducted config fun _ hardware c => c.readRegister hardware address register := by
  refine (send_conducted address [register]).bind
    (fun hardware c a c' _ h => by rw [readRegister, h]) ?_
  rintro (_ | _)
  · exact .pure _
  · refine (receive_conducted address [0]).bindPair
      (fun hardware c a b c' _ h => by dsimp only; rw [h]) ?_
    rintro (_ | _) buffer
    · exact .pure _
    · exact .pure _

theorem probe_conducted (addresses : List Address) :
    Conducted config fun _ hardware c => c.probe hardware addresses := by
  induction addresses with
  | nil => exact .pure _
  | cons address rest ih =>
    refine (execute_conducted ⟨address, .write [], config.scanTimeoutBudget.toNat⟩).bindPair
      (fun hardware c a b c' hconfig h => by
        rw [probe]
        dsimp only
        rw [hconfig, h]) ?_
    rintro (_ | _) _
    · exact ih.bind (fun hardware c a c' _ h => by rw [h]) fun _ => .pure _
    · exact ih.bind (fun hardware c a c' _ h => by rw [h]) fun _ => .pure _

theorem scan_conducted : Conducted config fun _ hardware c => c.scan hardware :=
  (probe_conducted Address.all).bind (fun hardware c a c' _ h => by rw [scan, h])
    fun _ => (Conducted.pure _).note _

theorem init_conducted : Conducted config fun _ hardware c => (Answer.done, c.init hardware) := by
  have hcontrol : Conducted config fun _ hardware c => (Answer.done,
      { c with bus := (c.window hardware).modify controlOffset (· ||| ackBit) c.bus }) :=
    (Conducted.pure _).modify _
  exact (hcontrol.write clockOffset config.defaultSpeedHz).note
    (.started config.baseAddress config.defaultSpeedHz)

theorem deinit_conducted : Conducted config fun _ hardware c => (Answer.done, c.deinit hardware) :=
  ((Conducted.pure _).modify (· &&& ~~~ackBit)).note (.stopped config.baseAddress)

theorem setSpeed_conducted (answer : α) (hz : UInt32) :
    Conducted config fun _ hardware c => (answer, c.setSpeed hardware hz) :=
  ((Conducted.pure _).write clockOffset hz).note _

/-! ## Operations -/

theorem command_conducted {command : Console.Command} (hcommand : command ≠ .registers) :
    Conducted config fun _ hardware c => command.run hardware c := by
  cases command with
  | registers => exact absurd rfl hcommand
  | scan =>
    exact scan_conducted.bind (fun hardware c a c' _ h => by rw [Console.Command.run, h])
      fun _ => .pure _
  | read address register =>
    exact (readRegister_conducted address register).bind
      (fun hardware c a c' _ h => by rw [Console.Command.run, h]) fun _ => .pure _
  | write address register value =>
    exact (send_conducted address [register, value]).bind
      (fun hardware c a c' _ h => by rw [Console.Command.run, writeRegister, h]) fun _ => .pure _
  | speed hz => exact setSpeed_conducted _ hz
  | statistics =>
    exact fun statistics journal =>
      ⟨.done (.ok (.statistics statistics), statistics, journal), fun _ _ _ => rfl⟩

theorem perform_conducted {operation : Operation} (hraw : operation.isRaw = false) :
    Conducted config fun _ hardware c => c.perform hardware operation := by
  cases operation with
  | init => exact init_conducted
  | deinit => exact deinit_conducted
  | setSpeed hz => exact setSpeed_conducted _ hz
  | send address bytes =>
    exact (send_conducted address bytes).bind (fun hardware c a c' _ h => by rw [perform, h])
      fun _ => .pure _
  | receive address buffer =>
    exact (receive_conducted address buffer).bindPair
      (fun hardware c a b c' _ h => by rw [perform, h]) fun _ _ => .pure _
  | sendWithRetries address bytes limit =>
    exact (sendWithRetries_conducted address bytes limit).bind
      (fun hardware c a c' _ h => by rw [perform, h]) fun _ => .pure _
  | receiveWithRetries address buffer limit =>
    exact (receiveWithRetries_conducted address buffer limit).bindPair
      (fun hardware c a b c' _ h => by rw [perform, h]) fun _ _ => .pure _
  | writeRegister address register value =>
    exact (send_conducted address [register, value]).bind
      (fun hardware c a c' _ h => by rw [perform, writeRegister, h]) fun _ => .pure _
  | readRegister address register =>
    exact (readRegister_conducted address register).bind
      (fun hardware c a c' _ h => by rw [perform, h]) fun _ => .pure _
  | scan =>
    exact scan_conducted.bind (fun hardware c a c' _ h => by rw [perform, h]) fun _ => .pure _
  | execute transaction =>
    exact (execute_conducted transaction).bindPair
      (fun hardware c a b c' _ h => by rw [perform, h]) fun _ _ => .pure _
  | resetStatistics => exact (Conducted.pure _).adjust (fun _ => {}) id
  | readRegisterAt offset => cases hraw
  | dumpRegisters => cases hraw
  | command command =>
    have hcommand : command ≠ .registers := by
      rintro rfl
      cases hraw
    exact (command_conducted hcommand).bind (fun hardware c a c' _ h => by rw [perform, h])
      fun _ => .pure _

/-- A run of operations none of which answers raw registers is one dialogue. -/
theorem run_conducted (operations : List Operation)
    (hraw : ∀ operation ∈ operations, operation.isRaw = false) :
    Conducted config fun _ hardware c => c.run hardware operations := by
  induction operations with
  | nil => exact .pure _
  | cons operation rest ih =>
    obtain ⟨hfirst, hrest⟩ := List.forall_mem_cons.mp hraw
    refine (perform_conducted hfirst).bind (fun hardware c a c' _ h => by rw [run, h]) fun _ => ?_
    exact (ih hrest).bind (fun hardware c a c' _ h => by dsimp only; rw [h]) fun _ => .pure _

end Controller

end Firmware.I2c
