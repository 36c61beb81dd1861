/-
  Firmware: how a property of hardware is carried over a transfer. Whatever is moved, and wherever
  it fails, a transfer is made of looks at the status, accesses to the data register and calls of
  the hook; a relation between the state before and after that holds of these, and can be chained,
  holds of every transfer. A transaction also sets START and STOP.
-/
import Firmware.I2c.Transaction
import Firmware.Proofs.Polling

namespace Firmware.I2c

variable {σ : Type} {hardware : Hardware σ} {R : σ → σ → Prop}

/-- The relation holds of all that transfers are made of, and it can be chained. -/
structure TransferSteps (hardware : Hardware σ) (R : σ → σ → Prop) : Prop where
  refl s : R s s
  trans {s t u} : R s t → R t u → R s u
  look s : R s (hardware.read statusOffset s).2
  take s : R s (hardware.read dataOffset s).2
  put (byte : UInt8) s : R s (hardware.write dataOffset byte.toUInt32 s)
  relax s : R s (hardware.relax s)

namespace TransferSteps

theorem awaitStatus (steps : TransferSteps hardware R) (budget : Nat) (ready : StatusFlags → Bool)
    (s : σ) : R s (awaitStatus hardware budget ready s).2 :=
  pollFrom_closed steps.refl steps.trans steps.look steps.relax budget 1 s

theorem sendByte (steps : TransferSteps hardware R) (budget : Nat) (byte : UInt8) (s : σ) :
    R s (sendByte hardware budget byte s).2 :=
  steps.trans (steps.put byte s) (steps.awaitStatus budget _ _)

theorem sendBytes (steps : TransferSteps hardware R) (budget : Nat) (bytes : List UInt8) (s : σ) :
    R s (sendBytes hardware budget bytes s).2 := by
  induction bytes generalizing s with
  | nil => exact steps.refl s
  | cons byte rest ih =>
    have h := steps.sendByte budget byte s
    unfold I2c.sendBytes
    generalize I2c.sendByte hardware budget byte s = sent at h ⊢
    obtain ⟨answer, t⟩ := sent
    cases answer with
    | error e => exact h
    | ok n => exact steps.trans h (ih t)

theorem fillBuffer (steps : TransferSteps hardware R) (budget : Nat) (buffer : List UInt8)
    (s : σ) : R s (fillBuffer hardware budget buffer s).2.2 := by
  induction buffer generalizing s with
  | nil => exact steps.refl s
  | cons old rest ih =>
    have h : R s (awaitDone hardware budget s).2 := steps.awaitStatus budget _ s
    unfold I2c.fillBuffer
    generalize awaitDone hardware budget s = awaited at h ⊢
    obtain ⟨answer, t⟩ := awaited
    cases answer with
    | error e => exact h
    | ok n => exact steps.trans h (steps.trans (steps.take t) (ih (hardware.read dataOffset t).2))

theorem moveData (steps : TransferSteps hardware R) (budget : Nat) (payload : Payload) (s : σ) :
    R s (moveData hardware budget payload s).2.2 := by
  cases payload with
  | write bytes => exact steps.sendBytes budget bytes s
  | read buffer => exact steps.fillBuffer budget buffer s

theorem transfer (steps : TransferSteps hardware R) (t : Transaction) (s : σ) :
    R s (t.transfer hardware s).2.2 := by
  have h := steps.sendByte t.budget (t.address.openingByte t.payload.direction) s
  unfold Transaction.transfer
  generalize I2c.sendByte hardware t.budget _ s = sent at h ⊢
  obtain ⟨answer, s'⟩ := sent
  cases answer with
  | error e => exact h
  | ok n => exact steps.trans h (steps.moveData t.budget t.payload s')

/-- What also holds of setting START and STOP holds of every transaction. -/
theorem run (steps : TransferSteps hardware R)
    (start : ∀ s, R s (hardware.setBits controlOffset startBit s))
    (stop : ∀ s, R s (hardware.setBits controlOffset stopBit s)) (t : Transaction) (s : σ) :
    R s (t.run hardware s).2.2 := by
  have h : R s (awaitFree hardware t.budget s).2 := steps.awaitStatus t.budget _ s
  unfold Transaction.run
  generalize awaitFree hardware t.budget s = awaited at h ⊢
  obtain ⟨answer, s'⟩ := awaited
  cases answer with
  | error e => exact h
  | ok n =>
    refine steps.trans h (steps.trans (start s') ?_)
    exact steps.trans (steps.transfer t _) (stop _)

end TransferSteps

end Firmware.I2c
