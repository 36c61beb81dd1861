/-
  Firmware: the accesses of a transaction, byte by byte, on any hardware. A byte that is sent is
  written and followed by looks at the status; a byte that is read is preceded by them. Looks that
  do not end with one that found Done are the last accesses of a transfer.
-/
import Firmware.Proofs.I2c.Agreement
import Firmware.Proofs.I2c.Brackets
import Firmware.Proofs.I2c.Controller
import Firmware.Proofs.I2c.SimulatedTransfer

namespace Firmware.I2c

/-! ## The accesses of a transfer -/

/-- A look at the status that finds a byte transferred. -/
def IsDone (base : UInt64) : Access → Prop
  | .read address word => address = base + statusOffset ∧ (StatusFlags.ofWord word).done = true
  | .write _ _ => False

/-- Looks at the status, the last of which finds a byte transferred. -/
def SeenDone (base : UInt64) (looks : List Access) : Prop :=
  ∃ earlier last, looks = earlier ++ [last] ∧ (∀ access ∈ earlier, IsLook base access) ∧
    IsDone base last

/-- The accesses that send bytes, and whether all of them were transferred in time. -/
inductive Sent (base : UInt64) : List UInt8 → Bool → List Access → Prop where
  | nil : Sent base [] true []
  | cut (byte : UInt8) (rest : List UInt8) {looks : List Access}
    (hlooks : ∀ access ∈ looks, IsLook base access) :
    Sent base (byte :: rest) false (.write (base + dataOffset) byte.toUInt32 :: looks)
  | next (byte : UInt8) {rest : List UInt8} {looks accesses : List Access} {finished : Bool}
    (hlooks : SeenDone base looks) (hrest : Sent base rest finished accesses) :
    Sent base (byte :: rest) finished
      (.write (base + dataOffset) byte.toUInt32 :: (looks ++ accesses))

/-- The accesses that fill a buffer, whether all of it was filled in time, and what is in it
then. -/
inductive Filled (base : UInt64) : List UInt8 → Bool → List UInt8 → List Access → Prop where
  | nil : Filled base [] true [] []
  | cut (old : UInt8) (rest : List UInt8) {looks : List Access}
    (hlooks : ∀ access ∈ looks, IsLook base access) :
    Filled base (old :: rest) false (old :: rest) looks
  | next (old : UInt8) (word : UInt32) {rest filled : List UInt8} {looks accesses : List Access}
    {finished : Bool} (hlooks : SeenDone base looks)
    (hrest : Filled base rest finished filled accesses) :
    Filled base (old :: rest) finished (word.toUInt8 :: filled)
      (looks ++ .read (base + dataOffset) word :: accesses)

/-- The accesses of a transfer, whether it finished in time, and the payload as it is left. -/
inductive Transferred (base : UInt64) (opening : UInt8) :
    Payload → Bool → Payload → List Access → Prop where
  | unopened (payload : Payload) {accesses : List Access}
    (hopening : Sent base [opening] false accesses) :
    Transferred base opening payload false payload accesses
  | sent {bytes : List UInt8} {finished : Bool} {accesses : List Access}
    (hsent : Sent base (opening :: bytes) finished accesses) :
    Transferred base opening (.write bytes) finished (.write bytes) accesses
  | filled {buffer filled : List UInt8} {finished : Bool} {first rest : List Access}
    (hopening : Sent base [opening] true first)
    (hfilled : Filled base buffer finished filled rest) :
    Transferred base opening (.read buffer) finished (.read filled) (first ++ rest)

section

open Recorded

variable {σ : Type} (hardware : Hardware σ) (base : UInt64)

theorem awaitDone_looks (budget : Nat) (r : Recorded σ) :
    ∃ looks, (∀ access ∈ looks, IsLook base access) ∧
      (awaitDone (hardware.recorded.window base) budget r).2.accesses = r.accesses ++ looks ∧
      ((awaitDone (hardware.recorded.window base) budget r).1.isOk = true →
        SeenDone base looks) := by
  have hadds : Adds (IsLook base) r (awaitDone (hardware.recorded.window base) budget r).2 :=
    awaitStatus_adds hardware base budget _ r
  cases hawait : awaitDone (hardware.recorded.window base) budget r with
  | mk answer after =>
    rw [hawait] at hadds
    cases answer with
    | error e =>
      obtain ⟨looks, hlooks, hafter⟩ := hadds
      exact ⟨looks, hlooks, hafter, nofun⟩
    | ok n =>
      -- The wait ended with a look that found Done, and all that came before it are looks too.
      have hpoll : ∃ last, Adds (IsLook base) r last ∧
          ((StatusFlags.ofWord (hardware.recorded.read (base + statusOffset) last).1).done,
            (hardware.recorded.read (base + statusOffset) last).2) = (true, after) := by
        refine pollFrom_ok Adds.refl Adds.trans (fun r => ?_) (fun r => ?_) budget 1 r hawait
        · exact adds_read hardware.toRegisters r fun _ => rfl
        · exact Adds.refl (P := IsLook base) _
      obtain ⟨last, ⟨earlier, hearlier, hlast⟩, hdone⟩ := hpoll
      obtain ⟨hready, rfl⟩ := Prod.mk.inj hdone
      have hafter := accesses_read hardware.toRegisters (base + statusOffset) last
      rw [hlast, List.append_assoc] at hafter
      refine ⟨_, fun access hmem => ?_, hafter, fun _ => ⟨earlier, _, rfl, hearlier, ?_⟩⟩
      · rcases List.mem_append.mp hmem with h | h
        · exact hearlier access h
        · rw [List.mem_singleton.mp h]
          exact rfl
      · exact ⟨rfl, hready⟩

theorem sendByte_looks (budget : Nat) (byte : UInt8) (r : Recorded σ) :
    ∃ looks, (∀ access ∈ looks, IsLook base access) ∧
      (sendByte (hardware.recorded.window base) budget byte r).2.accesses =
        r.accesses ++ .write (base + dataOffset) byte.toUInt32 :: looks ∧
      ((sendByte (hardware.recorded.window base) budget byte r).1.isOk = true →
        SeenDone base looks) := by
  obtain ⟨looks, hlooks, hadded, hdone⟩ := awaitDone_looks hardware base budget
    ((hardware.recorded.window base).write dataOffset byte.toUInt32 r)
  refine ⟨looks, hlooks, ?_, hdone⟩
  have hwrite : ((hardware.recorded.window base).write dataOffset byte.toUInt32 r).accesses =
      r.accesses ++ [.write (base + dataOffset) byte.toUInt32] :=
    accesses_write hardware.toRegisters _ _ r
  rw [sendByte, hadded, hwrite, List.append_assoc]
  rfl

theorem sendBytes_sent (budget : Nat) (bytes : List UInt8) (r : Recorded σ) :
    ∃ added, Sent base bytes (sendBytes (hardware.recorded.window base) budget bytes r).1.isOk
        added ∧
      (sendBytes (hardware.recorded.window base) budget bytes r).2.accesses =
        r.accesses ++ added := by
  induction bytes generalizing r with
  | nil => exact ⟨[], .nil, (List.append_nil _).symm⟩
  | cons byte rest ih =>
    obtain ⟨looks, hlooks, hadded, hdone⟩ := sendByte_looks hardware base budget byte r
    unfold sendBytes
    generalize sendByte (hardware.recorded.window base) budget byte r = sent at hadded hdone ⊢
    obtain ⟨answer, s⟩ := sent
    cases answer with
    | error e => exact ⟨_, .cut byte rest hlooks, hadded⟩
    | ok n =>
      obtain ⟨added, hsent, hrest⟩ := ih s
      refine ⟨_, .next byte (hdone rfl) hsent, ?_⟩
      dsimp only at hadded ⊢
      rw [hrest, hadded, List.append_assoc]
      rfl

theorem fillBuffer_filled (budget : Nat) (buffer : List UInt8) (r : Recorded σ) :
    ∃ added, Filled base buffer
        (fillBuffer (hardware.recorded.window base) budget buffer r).1.isOk
        (fillBuffer (hardware.recorded.window base) budget buffer r).2.1 added ∧
      (fillBuffer (hardware.recorded.window base) budget buffer r).2.2.accesses =
        r.accesses ++ added := by
  induction buffer generalizing r with
  | nil => exact ⟨[], .nil, (List.append_nil _).symm⟩
  | cons old rest ih =>
    obtain ⟨looks, hlooks, hadded, hdone⟩ := awaitDone_looks hardware base budget r
    unfold fillBuffer
    generalize awaitDone (hardware.recorded.window base) budget r = awaited at hadded hdone ⊢
    obtain ⟨answer, s⟩ := awaited
    cases answer with
    | error e => exact ⟨looks, .cut old rest hlooks, hadded⟩
    | ok n =>
      have hread : ((hardware.recorded.window base).read dataOffset s).2.accesses =
          s.accesses ++ [.read (base + dataOffset)
            ((hardware.recorded.window base).read dataOffset s).1] :=
        accesses_read hardware.toRegisters _ s
      obtain ⟨added, hfilled, hrest⟩ := ih ((hardware.recorded.window base).read dataOffset s).2
      refine ⟨_, .next old _ (hdone rfl) hfilled, ?_⟩
      dsimp only at hadded ⊢
      rw [hrest, hread, hadded, List.append_assoc, List.append_assoc]
      rfl

theorem transfer_transferred (t : Transaction) (r : Recorded σ) :
    ∃ added, Transferred base t.opening t.payload
        (t.transfer (hardware.recorded.window base) r).1.isOk
        (t.transfer (hardware.recorded.window base) r).2.1 added ∧
      (t.transfer (hardware.recorded.window base) r).2.2.accesses = r.accesses ++ added := by
  obtain ⟨looks, hlooks, hadded, hdone⟩ := sendByte_looks hardware base t.budget t.opening r
  unfold Transaction.transfer
  rw [← Transaction.opening]
  generalize sendByte (hardware.recorded.window base) t.budget t.opening r = sent at hadded hdone ⊢
  obtain ⟨answer, s⟩ := sent
  cases answer with
  | error e => exact ⟨_, .unopened t.payload (.cut t.opening [] hlooks), hadded⟩
  | ok n =>
    dsimp only at hadded ⊢
    cases t.payload with
    | write bytes =>
      obtain ⟨added, hsent, hrest⟩ := sendBytes_sent hardware base t.budget bytes s
      refine ⟨_, .sent (.next t.opening (hdone rfl) hsent), ?_⟩
      simp only [moveData]
      rw [hrest, hadded, List.append_assoc]
      rfl
    | read buffer =>
      obtain ⟨added, hfilled, hrest⟩ := fillBuffer_filled hardware base t.budget buffer s
      refine ⟨_, .filled (.next t.opening (hdone rfl) .nil) hfilled, ?_⟩
      simp only [moveData]
      rw [hrest, hadded, List.append_assoc, List.append_nil]

end

/-! ## The accesses of a transaction -/

/-- What a transaction accesses before its transfer. -/
def opened (base : UInt64) (looks : List Access) (control : UInt32) : List Access :=
  looks ++ [.read (base + controlOffset) control,
    .write (base + controlOffset) (control ||| startBit)]

/-- What a transaction accesses after its transfer. -/
def closed (base : UInt64) (control : UInt32) : List Access :=
  [.read (base + controlOffset) control, .write (base + controlOffset) (control ||| stopBit)]

/-- What a transaction comes to, the payload as it is left, and its accesses. -/
inductive Traced (base : UInt64) (t : Transaction) : Outcome → Payload → List Access → Prop where
  /-- The bus was held for the whole wait. -/
  | held {looks : List Access} (hlooks : ∀ access ∈ looks, IsLook base access) :
    Traced base t (.error .busFree) t.payload looks
  | moved {outcome : Outcome} {left : Payload} {looks transfer : List Access} (first last : UInt32)
    (houtcome : outcome ≠ .error .busFree) (hlooks : ∀ access ∈ looks, IsLook base access)
    (htransfer : Transferred base t.opening t.payload outcome.isOk left transfer) :
    Traced base t outcome left (opened base looks first ++ (transfer ++ closed base last))

variable {σ : Type}

theorem run_traced (hardware : Hardware σ) (base : UInt64) (t : Transaction) (r : Recorded σ) :
    ∃ added, Traced base t (t.run (hardware.recorded.window base) r).1
        (t.run (hardware.recorded.window base) r).2.1 added ∧
      (t.run (hardware.recorded.window base) r).2.2.accesses = r.accesses ++ added := by
  rcases run_parts hardware base t r with ⟨looks, after, hrun, hlooks, hadded⟩ |
    ⟨looks, first, started, last, after, hrun, hlooks, hstarted, hadded⟩
  · rw [hrun]
    exact ⟨looks, .held hlooks, hadded⟩
  · obtain ⟨transfer, htransfer, hmoved⟩ := transfer_transferred hardware base t started
    have houtcome : (t.transfer (hardware.recorded.window base) started).1 ≠ .error .busFree :=
      fun h => nomatch transfer_phase (hardware.recorded.window base) t started h
    rw [hrun]
    refine ⟨_, .moved first last houtcome hlooks htransfer, ?_⟩
    dsimp only
    rw [hadded, hmoved, hstarted, opened, closed]
    simp only [List.append_assoc]

/-- A controller with the same hardware and nothing recorded yet. -/
def Controller.recorded (c : Controller σ) : Controller (Recorded σ) :=
  { config := c.config, bus := { state := c.bus }, statistics := c.statistics,
    journal := c.journal }

/-- Hardware answers alike with and without a record of its accesses. -/
theorem Recorded.agrees (hardware : Hardware σ) (base : UInt64) :
    Agrees (hardware.recorded.window base) (hardware.window base) (fun r s => r.state = s) :=
  .ofView base (fun _ _ => rfl) (fun _ _ _ => rfl) fun _ => rfl

namespace Controller

theorem execute_recorded (hardware : Hardware σ) (c : Controller σ) (t : Transaction) :
    (c.recorded.execute hardware.recorded t).1 = (c.execute hardware t).1 ∧
      (c.recorded.execute hardware.recorded t).2.1 = (c.execute hardware t).2.1 ∧
      (c.recorded.execute hardware.recorded t).2.2.bus.state = (c.execute hardware t).2.2.bus := by
  have h := execute_mapBus (c := c.recorded) (Recorded.agrees hardware c.config.baseAddress) t
  replace h : c.execute hardware t = _ := h
  rw [h]
  exact ⟨rfl, rfl, rfl⟩

/-- A transaction found the bus held and only looked at the status, or it accessed what a transfer
does between the setting of START and the setting of STOP. -/
theorem execute_transferred (hardware : Hardware σ) (c : Controller σ) (t : Transaction) :
    let base := c.config.baseAddress
    let result := (c.execute hardware t).1
    let payload := (c.execute hardware t).2.1
    let accesses := (c.recorded.execute hardware.recorded t).2.2.bus.accesses
    (∃ looks, result = .error .timeout ∧ payload = t.payload ∧
      (∀ access ∈ looks, IsLook base access) ∧ accesses = looks) ∨
    ∃ outcome looks first transfer last, result = Outcome.answer outcome ∧
      (∀ access ∈ looks, IsLook base access) ∧
      Transferred base t.opening t.payload outcome.isOk payload transfer ∧
      accesses = opened base looks first ++ (transfer ++ closed base last) := by
  obtain ⟨hresult, hpayload, -⟩ := execute_recorded hardware c t
  dsimp only
  rw [← hresult, ← hpayload]
  have htraced := run_traced hardware c.config.baseAddress t c.recorded.bus
  cases hrun : t.run (c.recorded.window hardware.recorded) c.recorded.bus with
  | mk outcome rest =>
  obtain ⟨left, after⟩ := rest
  obtain ⟨journal, hexecute⟩ := execute_of_run (c := c.recorded) hardware.recorded hrun
  obtain ⟨added, htraced, hadded⟩ := htraced
  rw [show t.run (hardware.recorded.window c.config.baseAddress) c.recorded.bus = _ from hrun]
    at htraced hadded
  obtain rfl : after.accesses = added := hadded
  rw [hexecute]
  dsimp only at htraced ⊢
  generalize after.accesses = accesses at htraced ⊢
  cases htraced with
  | held hlooks => exact .inl ⟨_, rfl, rfl, hlooks, rfl⟩
  | moved first last _ hlooks htransfer =>
    exact .inr ⟨outcome, _, first, _, last, rfl, hlooks, htransfer, rfl⟩

end Controller

end Firmware.I2c
