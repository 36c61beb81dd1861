/-
  Firmware: repeated exchanges, attempt by attempt, on any hardware. An attempt is a whole
  transaction on the hardware as the one before it left it. What it writes starts over with the
  opening byte and the first byte of the payload, also where an attempt before it got further.
-/
import Firmware.Proofs.I2c.Handshake
import Firmware.Proofs.I2c.Series

namespace Firmware.I2c

/-! ## One attempt -/

/-- A transaction that was made: what it came to, the payload as it is left, and its accesses. -/
structure Attempt where
  outcome : Outcome
  left : Payload
  accesses : List Access

section

variable {σ : Type} (hardware : Hardware σ) (base : UInt64)

/-- A transaction made on hardware in a state, with no other accesses on the record. -/
def Transaction.attempt (t : Transaction) (s : σ) : Attempt × σ :=
  let (outcome, left, after) := t.run (hardware.recorded.window base) { state := s }
  ({ outcome, left, accesses := after.accesses }, after.state)

theorem Transaction.attempt_traced (t : Transaction) (s : σ) :
    let attempt := (t.attempt hardware base s).1
    Traced base t attempt.outcome attempt.left attempt.accesses := by
  obtain ⟨added, htraced, hadded⟩ := run_traced hardware base t { state := s }
  obtain rfl : _ = added := hadded
  exact htraced

/-- Records over one state, one of which has other accesses in front. -/
def Recorded.Behind (before : List Access) (r r' : Recorded σ) : Prop :=
  r.state = r'.state ∧ r.accesses = before ++ r'.accesses

namespace Recorded

variable {before : List Access} {r r' : Recorded σ}

theorem Behind.read (h : Behind before r r') (registers : Registers σ) (address : UInt64) :
    (registers.recorded.read address r).1 = (registers.recorded.read address r').1 ∧
      Behind before (registers.recorded.read address r).2
        (registers.recorded.read address r').2 := by
  obtain ⟨hstate, haccesses⟩ := h
  refine ⟨congrArg (fun s => (registers.read address s).1) hstate,
    congrArg (fun s => (registers.read address s).2) hstate, ?_⟩
  rw [Recorded.accesses_read, Recorded.accesses_read, haccesses, hstate, List.append_assoc]

theorem Behind.write (h : Behind before r r') (registers : Registers σ) (address : UInt64)
    (word : UInt32) : Behind before (registers.recorded.write address word r)
      (registers.recorded.write address word r') := by
  obtain ⟨hstate, haccesses⟩ := h
  refine ⟨congrArg (registers.write address word) hstate, ?_⟩
  rw [Recorded.accesses_write, Recorded.accesses_write, haccesses, List.append_assoc]

/-- What is on the record already makes no difference. -/
theorem agrees_behind (before : List Access) :
    Agrees (hardware.recorded.window base) (hardware.recorded.window base) (Behind before) where
  status h :=
    (h.read hardware.toRegisters (base + statusOffset)).imp (congrArg StatusFlags.ofWord) id
  data h := (h.read hardware.toRegisters (base + dataOffset)).imp (congrArg UInt32.toUInt8) id
  control h := by
    obtain ⟨hvalue, hbehind⟩ := h.read hardware.toRegisters (base + controlOffset)
    exact .of_eq hvalue hbehind
  write offset word h := h.write hardware.toRegisters (base + offset) word
  relax h := ⟨congrArg hardware.relax h.1, h.2⟩

end Recorded

theorem Transaction.run_attempt (t : Transaction) (r : Recorded σ) :
    let (attempt, s) := t.attempt hardware base r.state
    ∃ after, t.run (hardware.recorded.window base) r = (attempt.outcome, attempt.left, after) ∧
      after.state = s ∧ after.accesses = r.accesses ++ attempt.accesses := by
  have hbehind : Recorded.Behind r.accesses r { state := r.state } :=
    ⟨rfl, (List.append_nil _).symm⟩
  have halike := (Recorded.agrees_behind hardware base r.accesses).run t hbehind
  dsimp only [attempt]
  generalize t.run (hardware.recorded.window base) r = x at halike ⊢
  generalize t.run (hardware.recorded.window base) { state := r.state } = y at halike ⊢
  cases halike with
  | intro outcome halike =>
    cases halike with
    | @intro left after _ h => exact ⟨after, rfl, h⟩

theorem Transaction.attempt_alike (t : Transaction) (s : σ) :
    t.payload.Alike (t.attempt hardware base s).1.left :=
  run_alike (hardware.recorded.window base) t { state := s }

end

/-! ## Attempt by attempt -/

/-- Attempts at an exchange with an address. Each is made where the one before it left the hardware
and the payload. -/
inductive Tried {σ : Type} (hardware : Hardware σ) (base : UInt64) (address : Address)
    (budget : Nat) : Payload → σ → List Attempt → Payload → σ → Prop where
  | nil (payload : Payload) (s : σ) : Tried hardware base address budget payload s [] payload s
  | cons {payload payload' : Payload} {s s' s'' : σ} {attempt : Attempt}
    {attempts : List Attempt} :
    (⟨address, payload, budget⟩ : Transaction).attempt hardware base s = (attempt, s') →
    Tried hardware base address budget attempt.left s' attempts payload' s'' →
    Tried hardware base address budget payload s (attempt :: attempts) payload' s''

variable {σ : Type} {hardware : Hardware σ} {base : UInt64} {address : Address} {budget : Nat}
  {payload payload' : Payload} {s s' : σ} {attempts : List Attempt}

theorem Series.tried {r r' : Recorded σ} {outcomes : List Outcome}
    (series : Series (hardware.recorded.window base) address budget payload r outcomes
      payload' r') :
    ∃ attempts, Tried hardware base address budget payload r.state attempts payload' r'.state ∧
      attempts.map Attempt.outcome = outcomes ∧
      r'.accesses = r.accesses ++ (attempts.map Attempt.accesses).flatten := by
  induction series with
  | nil payload r => exact ⟨[], .nil payload r.state, rfl, (List.append_nil _).symm⟩
  | @cons payload _ _ r _ _ _ _ hrun _ ih =>
    obtain ⟨attempts, htried, rfl, hrest⟩ := ih
    have hattempt := Transaction.run_attempt hardware base ⟨address, payload, budget⟩ r
    cases hmade : (⟨address, payload, budget⟩ : Transaction).attempt hardware base r.state with
    | mk attempt s =>
    rw [hmade] at hattempt
    obtain ⟨after, hrun', rfl, haccesses⟩ := hattempt
    obtain ⟨rfl, rfl, rfl⟩ : _ ∧ _ ∧ _ := by simpa using hrun.symm.trans hrun'
    refine ⟨attempt :: attempts, .cons hmade htried, rfl, ?_⟩
    rw [hrest, haccesses, List.append_assoc]
    rfl

/-- An attempt that begins at the start of a payload. -/
structure Attempt.FromStart (base : UInt64) (address : Address) (payload : Payload)
    (attempt : Attempt) : Prop where
  /-- Without the bus there is nothing but looks at the status. -/
  held : attempt.outcome = .error .busFree → ∀ access ∈ attempt.accesses, IsLook base access
  /-- With it, the opening byte is the first one that is written. -/
  opens : attempt.outcome ≠ .error .busFree →
    (wordsWritten (base + dataOffset) attempt.accesses).head? =
      some (address.openingByte payload.direction).toUInt32
  /-- The payload follows from its first byte on, -/
  continues : wordsWritten (base + dataOffset) attempt.accesses <+:
    (address.openingByte payload.direction :: payload.sent).map UInt8.toUInt32
  /-- and all of it where the attempt succeeds. -/
  completes : attempt.outcome = .ok () → wordsWritten (base + dataOffset) attempt.accesses =
    (address.openingByte payload.direction :: payload.sent).map UInt8.toUInt32
  /-- A buffer is then left with what the attempt itself read. -/
  fills : attempt.outcome = .ok () → attempt.left.buffer =
    (wordsRead (base + dataOffset) attempt.accesses).map UInt32.toUInt8

theorem Payload.buffer_receiving {received : List UInt8}
    (h : received.length = payload.buffer.length) :
    (payload.receiving received).buffer = received := by
  cases payload with
  | write bytes => exact (List.eq_nil_of_length_eq_zero h).symm
  | read buffer =>
    show received ++ buffer.drop received.length = received
    rw [h, Payload.buffer, List.drop_length, List.append_nil]

theorem Traced.fromStart {t : Transaction} {attempt : Attempt}
    (h : Traced base t attempt.outcome attempt.left attempt.accesses) :
    attempt.FromStart base t.address t.payload := by
  obtain ⟨outcome, left, accesses⟩ := attempt
  dsimp only at h
  cases h with
  | held hlooks =>
    refine ⟨fun _ => hlooks, fun h => absurd rfl h, ?_, nofun, nofun⟩
    rw [wordsWritten_looks hlooks]
    exact List.nil_prefix
  | moved first last houtcome hlooks htransfer =>
    have hfinished (h : outcome = .ok ()) : outcome.isOk = true := by rw [h]; rfl
    obtain ⟨hbegins, hall, hleft, -, hfull⟩ := htransfer.words
    obtain ⟨-, hopening⟩ := htransfer.isChain
    constructor <;> dsimp only
    · exact fun h => absurd h houtcome
    · rw [wordsWritten_between hlooks]
      intro _
      obtain ⟨rest, rfl⟩ := List.head?_eq_some_iff.mp hopening
      rw [wordsWritten_write]
      rfl
    · rw [wordsWritten_between hlooks]
      exact hbegins
    · rw [wordsWritten_between hlooks]
      exact fun h => hall (hfinished h)
    · rw [wordsRead_between hlooks, hleft]
      exact fun h => Payload.buffer_receiving (hfull (hfinished h))

/-- Where an attempt starts does not depend on what is in a buffer. -/
theorem Attempt.FromStart.of_alike {attempt : Attempt} (h : attempt.FromStart base address payload')
    (halike : payload.Alike payload') : attempt.FromStart base address payload := by
  cases halike with
  | write bytes => exact h
  | read hlength => exact ⟨h.held, h.opens, h.continues, h.completes, h.fills⟩

theorem Tried.alike (h : Tried hardware base address budget payload s attempts payload' s') :
    payload.Alike payload' := by
  induction h with
  | nil payload => exact .refl payload
  | @cons payload _ s _ _ _ _ hmade _ ih =>
    have h := Transaction.attempt_alike hardware base ⟨address, payload, budget⟩ s
    rw [hmade] at h
    exact h.trans ih

theorem Tried.fromStart (h : Tried hardware base address budget payload s attempts payload' s') :
    ∀ attempt ∈ attempts, attempt.FromStart base address payload := by
  induction h with
  | nil => exact nofun
  | @cons payload _ s _ _ attempt _ hmade _ ih =>
    have htraced := Transaction.attempt_traced hardware base ⟨address, payload, budget⟩ s
    have halike := Transaction.attempt_alike hardware base ⟨address, payload, budget⟩ s
    rw [hmade] at htraced halike
    intro attempt' hmem
    rcases List.mem_cons.mp hmem with rfl | hmem
    · exact htraced.fromStart
    · exact (ih attempt' hmem).of_alike halike

theorem Tried.left_getLast {last : Attempt}
    (h : Tried hardware base address budget payload s attempts payload' s')
    (hlast : attempts.getLast? = some last) : payload' = last.left := by
  induction h with
  | nil => cases hlast
  | cons _ htried ih =>
    cases htried with
    | nil => exact congrArg Attempt.left (Option.some.inj hlast)
    | cons _ _ => exact ih hlast

/-! ## Repeated exchanges -/

/-- An exchange of a payload with an address that is repeated up to `limit` times: the attempts,
the result, the payload as it is left, and the controller afterwards. -/
structure Retried (hardware : Hardware σ) (c : Controller σ) (address : Address)
    (payload : Payload) (limit : Nat) (attempts : List Attempt) (result : Except Error Unit)
    (left : Payload) (after : Controller (Recorded σ)) : Prop where
  /-- The attempts are whole transactions, one after the other. -/
  tried : Tried hardware c.config.baseAddress address c.config.timeoutBudget.toNat payload c.bus
    attempts left after.bus.state
  accesses : after.bus.accesses = (attempts.map Attempt.accesses).flatten
  restarted : ∀ attempt ∈ attempts, attempt.FromStart c.config.baseAddress address payload
  bounded : attempts.length ≤ limit
  ok_iff : result = .ok () ↔ ∃ failed last, attempts = failed ++ [last] ∧
    last.outcome = .ok () ∧ ∀ attempt ∈ failed, attempt.outcome ≠ .ok ()
  failed_iff : result = .error .failed ↔
    attempts.length = limit ∧ ∀ attempt ∈ attempts, attempt.outcome ≠ .ok ()
  decided : result = .ok () ∨ result = .error .failed
  transactions : after.statistics.transactions = c.statistics.transactions + attempts.length
  retries : after.statistics.retries = c.statistics.retries + (max attempts.length 1 - 1)
  timeouts : after.statistics.timeouts =
    c.statistics.timeouts + attempts.countP (fun attempt => !attempt.outcome.isOk)
  /-- The buffer is what the last attempt read. -/
  received : result = .ok () → ∃ last, attempts.getLast? = some last ∧
    left.buffer = (wordsRead (c.config.baseAddress + dataOffset) last.accesses).map UInt32.toUInt8

namespace Controller

theorem exchangeWithRetries_recorded (hardware : Hardware σ) (limit : Nat) (address : UInt8)
    (payload : Payload) (c : Controller σ) :
    let recorded := c.recorded.exchangeWithRetries hardware.recorded limit address payload
    c.exchangeWithRetries hardware limit address payload =
      (recorded.1, recorded.2.1, recorded.2.2.mapBus Recorded.state) :=
  exchangeWithRetries_mapBus (c := c.recorded) (Recorded.agrees hardware c.config.baseAddress) limit
    address payload

theorem exchangeWithRetries_high (hardware : Hardware σ) (limit : Nat) {address : UInt8}
    (high : highestAddress < address) (payload : Payload) (c : Controller σ) :
    c.exchangeWithRetries hardware limit address payload =
      (.error (.outOfRange address.toNat), payload, c) := by
  rw [exchangeWithRetries, Address.ofByte, dif_neg (UInt8.not_le.mpr high)]

theorem exchangeWithRetries_retried (hardware : Hardware σ) (limit : Nat) (address : Address)
    (payload : Payload) (c : Controller σ) :
    let recorded := c.recorded.exchangeWithRetries hardware.recorded limit address.value payload
    ∃ attempts, Retried hardware c address payload limit attempts recorded.1 recorded.2.1
      recorded.2.2 := by
  obtain ⟨outcomes, result, left, after, hexchange, -, hcounted, hseries, hrepeated⟩ :=
    exchangeWithRetries_series hardware.recorded limit address payload c.recorded
  replace hseries : Series (hardware.recorded.window c.config.baseAddress) address _ payload
    _ _ _ _ := hseries
  obtain ⟨attempts, htried, rfl, haccesses⟩ := hseries.tried
  have hlength : (attempts.map Attempt.outcome).length = attempts.length := List.length_map _
  have hnone (made : List Attempt) : .ok () ∉ made.map Attempt.outcome ↔
      ∀ attempt ∈ made, attempt.outcome ≠ .ok () := by
    simp
  have hlast : result = .ok () ↔ ∃ failed last, attempts = failed ++ [last] ∧
      last.outcome = .ok () ∧ ∀ attempt ∈ failed, attempt.outcome ≠ .ok () := by
    rw [hrepeated.ok_iff]
    constructor
    · rintro ⟨failed, houtcomes, hfailed⟩
      obtain ⟨made, rest, rfl, rfl, hrest⟩ := List.map_eq_append_iff.mp houtcomes
      obtain ⟨last, rfl, hsucceeded⟩ := List.map_eq_singleton_iff.mp hrest
      exact ⟨made, last, rfl, hsucceeded, (hnone made).mp hfailed⟩
    · rintro ⟨failed, last, rfl, hsucceeded, hfailed⟩
      refine ⟨failed.map Attempt.outcome, ?_, (hnone failed).mpr hfailed⟩
      rw [List.map_append, List.map_singleton, hsucceeded]
  dsimp only
  rw [hexchange]
  refine ⟨attempts, htried, haccesses, htried.fromStart, ?_, hlast, ?_, ?_, ?_, ?_, ?_, ?_⟩
  · exact hlength ▸ hrepeated.length_le
  · rw [hrepeated.failed_iff, hlength, hnone]
  · exact hrepeated.result_eq.imp And.left And.left
  · rw [hcounted, Statistics.transactions_countSeries, hlength]
    rfl
  · rw [hcounted, Statistics.retries_countSeries, hlength]
    show c.statistics.retries + _ = _
    omega
  · rw [hcounted, Statistics.timeouts_countSeries, List.countP_map]
    rfl
  · intro hok
    obtain ⟨failed, last, rfl, hsucceeded, -⟩ := hlast.mp hok
    refine ⟨last, List.getLast?_concat, ?_⟩
    rw [htried.left_getLast List.getLast?_concat]
    exact (htried.fromStart last (List.mem_append_right _ List.mem_cons_self)).fills hsucceeded

/-- **Retries restart and never resume.** On any hardware, with any relax hook, a repeated exchange
with a 7-bit address makes at most `limit` whole transactions, one after the other, and its accesses
are theirs in order. Each writes the opening byte first, once it has the bus, and then the payload
from its first byte. The exchange succeeds exactly if the last transaction does, after none before
it did, and has otherwise failed, exactly if as many as the limit allows were made and none
succeeded; with a limit of 0 there is none. Every transaction is counted as one, every failed one as
a timeout, and every one after the first as a retry. A buffer that is received holds what the last
transaction read. An address of eight bits is refused, whatever the limit, and nothing happens. -/
theorem retries_restart (hardware : Hardware σ) (c : Controller σ) (limit : Nat)
    (bytes buffer : List UInt8) :
    (∀ address : Address,
      let sent := c.recorded.sendWithRetries hardware.recorded address.value bytes limit
      let received := c.recorded.receiveWithRetries hardware.recorded address.value buffer limit
      (c.sendWithRetries hardware address.value bytes limit =
          (sent.1, sent.2.mapBus Recorded.state) ∧
        ∃ attempts, Retried hardware c address (.write bytes) limit attempts sent.1
          (.write bytes) sent.2) ∧
      (c.receiveWithRetries hardware address.value buffer limit =
          (received.1, received.2.1, received.2.2.mapBus Recorded.state) ∧
        ∃ attempts, Retried hardware c address (.read buffer) limit attempts received.1
          (.read received.2.1) received.2.2)) ∧
    (∀ address : UInt8, highestAddress < address →
      (c.sendWithRetries hardware address bytes limit = (.error (.outOfRange address.toNat), c) ∧
        c.recorded.sendWithRetries hardware.recorded address bytes limit =
          (.error (.outOfRange address.toNat), c.recorded)) ∧
      (c.receiveWithRetries hardware address buffer limit =
          (.error (.outOfRange address.toNat), buffer, c) ∧
        c.recorded.receiveWithRetries hardware.recorded address buffer limit =
          (.error (.outOfRange address.toNat), buffer, c.recorded))) := by
  refine ⟨fun address => ⟨⟨?_, ?_⟩, ?_, ?_⟩, fun address high => ⟨⟨?_, ?_⟩, ?_, ?_⟩⟩
  · rw [sendWithRetries, exchangeWithRetries_recorded]
    rfl
  · obtain ⟨attempts, h⟩ :=
      exchangeWithRetries_retried hardware limit address (.write bytes) c
    rw [h.tried.alike.eq_write] at h
    exact ⟨attempts, h⟩
  · rw [receiveWithRetries, exchangeWithRetries_recorded]
    rfl
  · obtain ⟨attempts, h⟩ :=
      exchangeWithRetries_retried hardware limit address (.read buffer) c
    rw [h.tried.alike.eq_read] at h
    exact ⟨attempts, h⟩
  · rw [sendWithRetries, exchangeWithRetries_high hardware limit high]
  · rw [sendWithRetries, exchangeWithRetries_high hardware.recorded limit high]
  · rw [receiveWithRetries, exchangeWithRetries_high hardware limit high]
    rfl
  · rw [receiveWithRetries, exchangeWithRetries_high hardware.recorded limit high]
    rfl

/-- On hardware that shows Done after two calls of the hook, with one look at the status per wait,
the third attempt to send a byte succeeds, and two were retries. An address of eight bits is refused
also where no attempt would be made. -/
theorem retries_restart_third :
    let hardware : Hardware Nat :=
      { read := fun _ s => (if s < 2 then 0 else doneBit, s), write := fun _ _ s => s,
        relax := Nat.succ }
    let c := Controller.create { timeoutBudget := 1 } 0
    let after := (c.recorded.sendWithRetries hardware.recorded 0x50 [7] 3).2
    (c.sendWithRetries hardware 0x50 [7] 3).1 = .ok () ∧
    (∃ attempts : List Attempt, attempts.length = 3 ∧
      after.bus.accesses = (attempts.map Attempt.accesses).flatten ∧
      ∀ attempt ∈ attempts, attempt.FromStart defaultBase ⟨0x50, by decide⟩ (.write [7])) ∧
    highestAddress < 0x80 ∧
    c.sendWithRetries hardware 0x80 [7] 0 = (.error (.outOfRange 0x80), c) := by
  intro hardware c after
  have hresult : (c.sendWithRetries hardware 0x50 [7] 3).1 = .ok () := by decide +kernel
  have htransactions : after.statistics.transactions = 3 := by decide +kernel
  have high : highestAddress < 0x80 := by decide
  obtain ⟨hlow, hhigh⟩ := retries_restart hardware c 3 [7] []
  obtain ⟨⟨-, attempts, h⟩, -⟩ := hlow ⟨0x50, by decide⟩
  refine ⟨hresult, ⟨attempts, ?_, h.accesses, h.restarted⟩, high, ?_⟩
  · rw [← htransactions]
    exact (h.transactions.trans (Nat.zero_add _)).symm
  · exact ((retries_restart hardware c 0 [7] []).2 0x80 high).1.1

end Controller

end Firmware.I2c
