/-
  Firmware: what a transaction can come to, on any hardware. A failure is in the wait for a free
  bus, in the one for the opening byte or in one for a data byte, and the payload comes back with
  its direction and its length. What a buffer held before makes no difference on the bus.
-/
import Firmware.I2c.Transaction

namespace Firmware.I2c

variable {σ : Type} (hardware : Hardware σ) {phase : Phase}

/-! ## Failures -/

theorem sendBytes_phase (budget : Nat) (bytes : List UInt8) (s : σ)
    (h : (sendBytes hardware budget bytes s).1 = .error phase) : phase = .dataPhase := by
  induction bytes generalizing s with
  | nil => cases h
  | cons byte rest ih =>
    unfold sendBytes at h
    generalize sendByte hardware budget byte s = sent at h
    obtain ⟨answer, s'⟩ := sent
    cases answer with
    | error e => exact (Except.error.inj h).symm
    | ok n => exact ih s' h

theorem fillBuffer_phase (budget : Nat) (buffer : List UInt8) (s : σ)
    (h : (fillBuffer hardware budget buffer s).1 = .error phase) : phase = .dataPhase := by
  induction buffer generalizing s with
  | nil => cases h
  | cons old rest ih =>
    unfold fillBuffer at h
    generalize awaitDone hardware budget s = awaited at h
    obtain ⟨answer, s'⟩ := awaited
    cases answer with
    | error e => exact (Except.error.inj h).symm
    | ok n => exact ih (hardware.read dataOffset s').2 h

theorem moveData_phase (budget : Nat) (payload : Payload) (s : σ)
    (h : (moveData hardware budget payload s).1 = .error phase) : phase = .dataPhase := by
  cases payload with
  | write bytes => exact sendBytes_phase hardware budget bytes s h
  | read buffer => exact fillBuffer_phase hardware budget buffer s h

theorem transfer_phase (t : Transaction) (s : σ) (h : (t.transfer hardware s).1 = .error phase) :
    phase = .addressPhase ∨ phase = .dataPhase := by
  unfold Transaction.transfer at h
  generalize sendByte hardware t.budget _ s = sent at h
  obtain ⟨answer, s'⟩ := sent
  cases answer with
  | error e => exact .inl (Except.error.inj h).symm
  | ok n => exact .inr (moveData_phase hardware t.budget t.payload s' h)

theorem run_phase (t : Transaction) (s : σ) (h : (t.run hardware s).1 = .error phase) :
    phase = .busFree ∨ phase = .addressPhase ∨ phase = .dataPhase := by
  unfold Transaction.run at h
  generalize awaitFree hardware t.budget s = awaited at h
  obtain ⟨answer, s'⟩ := awaited
  cases answer with
  | error e => exact .inl (Except.error.inj h).symm
  | ok n => exact .inr (transfer_phase hardware t _ h)

/-- No transaction fails in setting START or STOP: nothing is waited for there. -/
theorem run_waited (t : Transaction) (s : σ) (h : (t.run hardware s).1 = .error phase) :
    phase ≠ .start ∧ phase ≠ .stop := by
  rcases run_phase hardware t s h with rfl | rfl | rfl <;> exact ⟨nofun, nofun⟩

/-! ## Payloads -/

theorem length_fillBuffer (budget : Nat) (buffer : List UInt8) (s : σ) :
    (fillBuffer hardware budget buffer s).2.1.length = buffer.length := by
  induction buffer generalizing s with
  | nil => rfl
  | cons old rest ih =>
    unfold fillBuffer
    generalize awaitDone hardware budget s = awaited
    obtain ⟨answer, s'⟩ := awaited
    cases answer with
    | error e => rfl
    | ok n => exact congrArg (· + 1) (ih (hardware.read dataOffset s').2)

/-- Bytes to send stay what they are; a buffer keeps its length. -/
inductive Payload.Alike : Payload → Payload → Prop where
  | write (bytes : List UInt8) : Alike (.write bytes) (.write bytes)
  | read {buffer buffer' : List UInt8} : buffer'.length = buffer.length →
    Alike (.read buffer) (.read buffer')

@[refl] theorem Payload.Alike.refl (payload : Payload) : payload.Alike payload := by
  cases payload with
  | write bytes => exact .write bytes
  | read buffer => exact .read rfl

theorem Payload.Alike.trans {p p' p'' : Payload} (h : p.Alike p') (h' : p'.Alike p'') :
    p.Alike p'' := by
  cases h with
  | write bytes => exact h'
  | read hlength =>
    cases h' with
    | read hlength' => exact .read (hlength'.trans hlength)

theorem Payload.Alike.eq_write {bytes : List UInt8} {p : Payload}
    (h : (Payload.write bytes).Alike p) : p = .write bytes := by
  cases h
  rfl

theorem Payload.Alike.eq_read {buffer : List UInt8} {p : Payload}
    (h : (Payload.read buffer).Alike p) : p = .read p.buffer := by
  cases h
  rfl

theorem Payload.Alike.direction_eq {p p' : Payload} (h : p.Alike p') :
    p'.direction = p.direction := by
  cases h <;> rfl

theorem moveData_alike (budget : Nat) (payload : Payload) (s : σ) :
    payload.Alike (moveData hardware budget payload s).2.1 := by
  cases payload with
  | write bytes => exact .write bytes
  | read buffer => exact .read (length_fillBuffer hardware budget buffer s)

theorem transfer_alike (t : Transaction) (s : σ) :
    t.payload.Alike (t.transfer hardware s).2.1 := by
  unfold Transaction.transfer
  generalize sendByte hardware t.budget _ s = sent
  obtain ⟨answer, s'⟩ := sent
  cases answer with
  | error e => rfl
  | ok n => exact moveData_alike hardware t.budget t.payload s'

theorem run_alike (t : Transaction) (s : σ) : t.payload.Alike (t.run hardware s).2.1 := by
  unfold Transaction.run
  generalize awaitFree hardware t.budget s = awaited
  obtain ⟨answer, s'⟩ := awaited
  cases answer with
  | error e => rfl
  | ok n => exact transfer_alike hardware t _

/-! ## Buffers -/

/-- What a buffer holds plays no part in filling it. -/
theorem fillBuffer_congr (budget : Nat) {buffer buffer' : List UInt8}
    (hlength : buffer'.length = buffer.length) (s : σ) :
    ∃ filled, fillBuffer hardware budget buffer' s =
      ((fillBuffer hardware budget buffer s).1, filled,
        (fillBuffer hardware budget buffer s).2.2) := by
  induction buffer generalizing buffer' s with
  | nil =>
    rw [List.length_nil, List.length_eq_zero_iff] at hlength
    subst hlength
    exact ⟨[], rfl⟩
  | cons old rest ih =>
    cases buffer' with
    | nil => cases hlength
    | cons old' rest' =>
      unfold fillBuffer
      generalize awaitDone hardware budget s = awaited
      obtain ⟨answer, s'⟩ := awaited
      cases answer with
      | error e => exact ⟨old' :: rest', rfl⟩
      | ok n =>
        obtain ⟨filled, hfilled⟩ := ih (Nat.succ.inj hlength) (hardware.read dataOffset s').2
        dsimp only
        rw [hfilled]
        exact ⟨_, rfl⟩

theorem moveData_congr (budget : Nat) {payload payload' : Payload} (alike : payload.Alike payload')
    (s : σ) : ∃ moved, moveData hardware budget payload' s =
      ((moveData hardware budget payload s).1, moved,
        (moveData hardware budget payload s).2.2) := by
  cases alike with
  | write bytes => exact ⟨_, rfl⟩
  | read hlength =>
    obtain ⟨filled, hfilled⟩ := fillBuffer_congr hardware budget hlength s
    refine ⟨.read filled, ?_⟩
    rw [moveData, hfilled]
    rfl

theorem transfer_congr (t : Transaction) {payload : Payload} (alike : t.payload.Alike payload)
    (s : σ) : ∃ moved, { t with payload }.transfer hardware s =
      ((t.transfer hardware s).1, moved, (t.transfer hardware s).2.2) := by
  unfold Transaction.transfer
  dsimp only
  rw [alike.direction_eq]
  generalize sendByte hardware t.budget _ s = sent
  obtain ⟨answer, s'⟩ := sent
  cases answer with
  | error e => exact ⟨payload, rfl⟩
  | ok n => exact moveData_congr hardware t.budget alike s'

/-- Transactions whose payloads are alike come to the same on the same hardware. -/
theorem run_congr (t : Transaction) {payload : Payload} (alike : t.payload.Alike payload) (s : σ) :
    ∃ moved, { t with payload }.run hardware s =
      ((t.run hardware s).1, moved, (t.run hardware s).2.2) := by
  unfold Transaction.run
  dsimp only
  generalize awaitFree hardware t.budget s = awaited
  obtain ⟨answer, s'⟩ := awaited
  cases answer with
  | error e => exact ⟨payload, rfl⟩
  | ok n =>
    obtain ⟨moved, hmoved⟩ :=
      transfer_congr hardware t alike (hardware.setBits controlOffset startBit s')
    dsimp only
    rw [hmoved]
    exact ⟨moved, rfl⟩

end Firmware.I2c
