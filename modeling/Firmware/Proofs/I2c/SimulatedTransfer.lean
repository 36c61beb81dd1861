/-
  Firmware: a transaction on a simulator, alone with it. There are three ways that it can go:
  the bus is held for longer than the budget, nobody acknowledges the opening byte, or the
  payload is delivered to the peripheral at the address. Each of them is stated with the whole
  state that it leaves.
-/
import Firmware.Proofs.I2c.Eeprom
import Firmware.Proofs.I2c.SimulatorSteps

namespace Firmware.I2c

/-! ## The opening byte -/

theorem Address.value_lt (address : Address) : address.value.toNat < 128 := by
  have h := UInt8.le_iff_toNat_le.mp address.le_highest
  have hhighest : highestAddress.toNat = 127 := rfl
  omega

/-- There are 128 addresses, one for each number below. -/
theorem Address.ofFin_surjective (address : Address) : ∃ n : Fin 128, ofFin n = address := by
  refine ⟨⟨address.value.toNat, address.value_lt⟩, ?_⟩
  cases address
  simp [ofFin]

theorem Address.openingByte_shiftRight (address : Address) (direction : Direction) :
    address.openingByte direction >>> 1 = address.value := by
  have hall : ∀ n : Fin 128, ∀ d ∈ [Direction.write, .read],
      (ofFin n).openingByte d >>> 1 = (ofFin n).value := by decide
  obtain ⟨n, rfl⟩ := address.ofFin_surjective
  exact hall n direction (by cases direction <;> decide)

theorem Address.openingByte_and_one (address : Address) (direction : Direction) :
    (address.openingByte direction &&& 1 != 0) = (direction = .read : Bool) := by
  have hall : ∀ n : Fin 128, ∀ d ∈ [Direction.write, .read],
      ((ofFin n).openingByte d &&& 1 != 0) = (d = .read : Bool) := by decide
  obtain ⟨n, rfl⟩ := address.ofFin_surjective
  exact hall n direction (by cases direction <;> decide)

namespace Transaction

/-- The byte that opens a transaction. -/
def opening (t : Transaction) : UInt8 := t.address.openingByte t.payload.direction

variable {σ : Type} {hardware : Hardware σ} {s after : σ}

theorem run_of_free (t : Transaction) {n : Nat} {free : σ} {outcome : Outcome}
    {payload : Payload} (hfree : awaitFree hardware t.budget s = (.ok n, free))
    (htransfer : t.transfer hardware (hardware.setBits controlOffset startBit free) =
      (outcome, payload, after)) :
    t.run hardware s = (outcome, payload, hardware.setBits controlOffset stopBit after) := by
  simp only [run, hfree, htransfer]

theorem transfer_of_unopened (t : Transaction) {e : Error}
    (hsend : sendByte hardware t.budget t.opening s = (.error e, after)) :
    t.transfer hardware s = (.error .addressPhase, t.payload, after) := by
  rw [transfer, ← opening, hsend]

theorem transfer_of_opened (t : Transaction) {n : Nat}
    (hsend : sendByte hardware t.budget t.opening s = (.ok n, after)) :
    t.transfer hardware s = moveData hardware t.budget t.payload after := by
  rw [transfer, ← opening, hsend]

end Transaction

namespace Simulator

variable {base : UInt64} {s : Simulator} {p : Peripheral}

/-! ## Peripherals in their places -/

theorem peripheral?_congr {s' : Simulator} (h : s'.peripherals = s.peripherals)
    (address : UInt8) : s'.peripheral? address = s.peripheral? address := by
  rw [peripheral?, peripheral?, h]

theorem peripheral?_place (s : Simulator) (address : UInt8) (p : Option Peripheral) :
    (s.place address p).peripheral? address = p :=
  Vector.getElem_set_self address.toNat_lt

theorem peripheral?_place_ne (s : Simulator) {address other : UInt8} (hne : other ≠ address)
    (p : Option Peripheral) : (s.place address p).peripheral? other = s.peripheral? other :=
  Vector.getElem_set_ne address.toNat_lt other.toNat_lt fun h => hne (UInt8.toNat.inj h).symm

theorem place_self {address : UInt8} {p : Option Peripheral} (h : s.peripheral? address = p) :
    s.place address p = s := by
  subst h
  have hset : s.peripherals.set address.toNat (s.peripheral? address) address.toNat_lt =
      s.peripherals := Vector.set_getElem_self address.toNat_lt
  rw [place, hset]

/-! ## Data accesses -/

/-- After `byte` was written to the data register, whatever it did. -/
def logged (s : Simulator) (byte : UInt8) : Simulator :=
  { s with latestDataWrites := byte :: s.latestDataWrites, lastData := byte.toUInt32 }

theorem writeData_eq (s : Simulator) (byte : UInt8) :
    s.writeData byte.toUInt32 =
      match s.state with
      | .awaitAddress => (s.logged byte).openTransfer byte
      | .writing address pointerSet => (s.logged byte).storeByte address pointerSet byte
      | .idle | .reading _ | .ignored => { s.logged byte with done := false } := by
  rw [writeData, UInt8.toUInt8_toUInt32]
  rfl

/-- What a transfer in some direction expects after it was opened. -/
def openState (address : UInt8) : Direction → BusState
  | .write => .writing address false
  | .read => .reading address

theorem writeData_acknowledged (hstate : s.state = .awaitAddress) (address : Address)
    (direction : Direction) (hp : s.peripheral? address.value = some p)
    (hnacks : s.nacks = 0) :
    s.writeData (address.openingByte direction).toUInt32 =
      { s.logged (address.openingByte direction) with
        done := true, state := openState address.value direction } := by
  have hp' : (s.logged (address.openingByte direction)).peripheral? address.value = some p := hp
  rw [writeData_eq, hstate]
  simp only [openTransfer, address.openingByte_shiftRight, address.openingByte_and_one, hp']
  cases direction <;> simp [logged, hnacks, openState]

/-- An opening byte that nobody acknowledges. -/
theorem writeData_refused (hstate : s.state = .awaitAddress) (address : Address)
    (direction : Direction) (h : s.peripheral? address.value = none ∨ 0 < s.nacks) :
    s.writeData (address.openingByte direction).toUInt32 =
      { s.logged (address.openingByte direction) with
        nacks := if (s.peripheral? address.value).isSome then s.nacks - 1 else s.nacks,
        done := false, state := .ignored } := by
  have hp : (s.logged (address.openingByte direction)).peripheral? address.value =
    s.peripheral? address.value := rfl
  rw [writeData_eq, hstate]
  simp only [openTransfer, address.openingByte_shiftRight, hp]
  cases hperipheral : s.peripheral? address.value with
  | none => rfl
  | some p =>
    have hnacks : 0 < s.nacks := by simpa [hperipheral] using h
    simp [logged, hnacks]

theorem writeData_writing {address : UInt8} {pointerSet : Bool}
    (hstate : s.state = .writing address pointerSet) (hp : s.peripheral? address = some p)
    (byte : UInt8) :
    s.writeData byte.toUInt32 =
      { (s.logged byte).place address
          (some (if pointerSet then p.store byte else { p with pointer := byte })) with
        done := true, state := .writing address true } := by
  have hp' : (s.logged byte).peripheral? address = some p := hp
  rw [writeData_eq, hstate]
  simp only [storeByte, hp']

theorem readData_reading {address : UInt8} (hstate : s.state = .reading address)
    (hp : s.peripheral? address = some p) :
    s.readData = (p.current.toUInt32,
      { s.place address (some p.advance) with lastData := p.current.toUInt32 }) := by
  simp only [readData, hstate, hp]

/-! ## The data bytes -/

/-- After a byte was sent to the peripheral at `address`, which made it `p`, and one look at the
status. -/
def fed (s : Simulator) (address : UInt8) (p : Peripheral) (byte : UInt8) : Simulator :=
  Simulator.looked
    { (s.logged byte).place address (some p) with
      done := true, state := .writing address true } 1

theorem sendByte_writing (hbase : s.base = base) {budget : Nat} (hbudget : 0 < budget)
    (hstalled : s.stalled = false) {address : UInt8} {pointerSet : Bool}
    (hstate : s.state = .writing address pointerSet) (hp : s.peripheral? address = some p)
    (byte : UInt8) :
    sendByte (bare base) budget byte s =
      (.ok 1, s.fed address (if pointerSet then p.store byte else { p with pointer := byte })
        byte) := by
  rw [sendByte, write_data hbase, writeData_writing hstate hp]
  exact awaitDone_done (s := { (s.logged byte).place address _ with
    done := true, state := .writing address true }) hbase hbudget rfl hstalled

/-- Bytes behind the pointer are stored, with one look at the status each. -/
theorem sendBytes_stored (hbase : s.base = base) {budget : Nat} (hbudget : 0 < budget)
    (hstalled : s.stalled = false) (hdone : s.done = true) {address : UInt8}
    (hstate : s.state = .writing address true) (hp : s.peripheral? address = some p)
    {last : UInt8} (hlast : s.lastData = last.toUInt32) (bytes : List UInt8) :
    sendBytes (bare base) budget bytes s =
      (.ok (), { (s.looked bytes.length).place address (some (bytes.foldl .store p)) with
        lastData := (bytes.getLastD last).toUInt32,
        latestDataWrites := bytes.reverse ++ s.latestDataWrites }) := by
  induction bytes generalizing s p last with
  | nil =>
    have hplace := place_self (s := s.looked 0) hp
    rw [sendBytes, List.foldl_nil, List.length_nil, hplace, List.getLastD_nil, ← hlast]
    rfl
  | cons byte rest ih =>
    have hrest := ih (s := s.fed address (p.store byte) byte) hbase hstalled rfl rfl
      (peripheral?_place _ _ _) rfl
    rw [sendBytes, sendByte_writing hbase hbudget hstalled hstate hp byte]
    dsimp only
    rw [if_pos rfl, hrest, List.getLastD_cons]
    simp [fed, looked, place, logged, hdone, hstate, Nat.add_assoc, Nat.add_comm 1, Nat.sub_sub]

/-- Bytes of an opened write transfer, the first of which is the new pointer. -/
theorem sendBytes_written (hbase : s.base = base) {budget : Nat} (hbudget : 0 < budget)
    (hstalled : s.stalled = false) (hdone : s.done = true) {address : UInt8}
    (hstate : s.state = .writing address false) (hp : s.peripheral? address = some p)
    {last : UInt8} (hlast : s.lastData = last.toUInt32) (bytes : List UInt8) :
    ∃ state, sendBytes (bare base) budget bytes s =
      (.ok (), { (s.looked bytes.length).place address (some (p.written bytes)) with
        state := state, lastData := (bytes.getLastD last).toUInt32,
        latestDataWrites := bytes.reverse ++ s.latestDataWrites }) := by
  cases bytes with
  | nil =>
    refine ⟨s.state, ?_⟩
    have hplace := place_self (s := s.looked 0) hp
    rw [sendBytes, Peripheral.written, List.length_nil, hplace, List.getLastD_nil, ← hlast]
    rfl
  | cons start rest =>
    refine ⟨.writing address true, ?_⟩
    have hrest := sendBytes_stored (s := s.fed address { p with pointer := start } start)
      hbase hbudget hstalled rfl rfl (peripheral?_place _ _ _) rfl rest
    rw [sendBytes, sendByte_writing hbase hbudget hstalled hstate hp start]
    dsimp only
    rw [if_neg Bool.false_ne_true, hrest, List.getLastD_cons, Peripheral.foldl_store]
    simp [fed, looked, place, logged, hdone, Nat.add_assoc, Nat.add_comm 1, Nat.sub_sub]

/-- Bytes of an opened read transfer, with one look at the status before each. -/
theorem fillBuffer_shown (hbase : s.base = base) {budget : Nat} (hbudget : 0 < budget)
    (hstalled : s.stalled = false) (hdone : s.done = true) {address : UInt8}
    (hstate : s.state = .reading address) (hp : s.peripheral? address = some p)
    {last : UInt8} (hlast : s.lastData = last.toUInt32) (buffer : List UInt8) :
    fillBuffer (bare base) budget buffer s =
      (.ok (), p.shown buffer.length,
        { (s.looked buffer.length).place address (some (p.passed buffer.length)) with
          lastData := ((p.shown buffer.length).getLastD last).toUInt32 }) := by
  induction buffer generalizing s p last with
  | nil =>
    have hplace := place_self (s := s.looked 0) hp
    rw [fillBuffer, List.length_nil, p.passed_zero, hplace]
    show _ = (_, [], { s.looked 0 with lastData := last.toUInt32 })
    rw [← hlast]
    rfl
  | cons old rest ih =>
    have hread : (bare base).read dataOffset (s.looked 1) = (p.current.toUInt32,
        { (s.looked 1).place address (some p.advance) with lastData := p.current.toUInt32 }) :=
      (read_data (s := s.looked 1) hbase).trans
        (readData_reading (s := s.looked 1) hstate hp)
    have hrest := ih (s := { (s.looked 1).place address (some p.advance) with
        lastData := p.current.toUInt32 }) hbase hstalled hdone hstate (peripheral?_place _ _ _) rfl
    rw [fillBuffer, awaitDone_done hbase hbudget hdone hstalled]
    simp only [hread, hrest]
    rw [List.length_cons, p.shown_succ, p.passed_succ, List.getLastD_cons,
      UInt8.toUInt8_toUInt32]
    simp [looked, place, Nat.add_assoc, Nat.add_comm 1, Nat.sub_sub]

/-- An opened transfer delivers its payload. -/
theorem moveData_deliver (hbase : s.base = base) {budget : Nat} (hbudget : 0 < budget)
    (hstalled : s.stalled = false) (hdone : s.done = true) {address : UInt8}
    (payload : Payload) (hstate : s.state = openState address payload.direction)
    (hp : s.peripheral? address = some p) {last : UInt8} (hlast : s.lastData = last.toUInt32) :
    ∃ state, moveData (bare base) budget payload s =
      (.ok (), (payload.deliver p).1,
        { (s.looked payload.length).place address (some (payload.deliver p).2) with
          state := state, lastData := ((payload.moved p).getLastD last).toUInt32,
          latestDataWrites := payload.sent.reverse ++ s.latestDataWrites }) := by
  cases payload with
  | write bytes =>
    obtain ⟨state, h⟩ := sendBytes_written hbase hbudget hstalled hdone hstate hp hlast bytes
    refine ⟨state, ?_⟩
    rw [moveData, h]
    rfl
  | read buffer =>
    refine ⟨s.state, ?_⟩
    rw [moveData, fillBuffer_shown hbase hbudget hstalled hdone hstate hp hlast buffer]
    rfl

/-! ## Transactions -/

/-- The peripheral that a transaction is for, if it is attached. -/
def target? (s : Simulator) (t : Transaction) : Option Peripheral :=
  s.peripheral? t.address.value

/-- After a transaction whose opening byte nobody acknowledged. -/
def refused (s : Simulator) (t : Transaction) : Simulator :=
  { s with
    statusReads := s.statusReads + s.heldReads + 1 + t.budget, heldReads := 0,
    nacks := if (s.target? t).isSome then s.nacks - 1 else s.nacks,
    starts := s.starts + 1, stops := s.stops + 1, done := false, state := .idle,
    lastData := t.opening.toUInt32, latestDataWrites := t.opening :: s.latestDataWrites }

/-- After a transaction that reached the peripheral `p`. -/
def delivered (s : Simulator) (t : Transaction) (p : Peripheral) : Simulator :=
  { s.place t.address.value (some (t.payload.deliver p).2) with
    statusReads := s.statusReads + s.heldReads + 2 + t.payload.length, heldReads := 0,
    starts := s.starts + 1, stops := s.stops + 1, done := false, state := .idle,
    lastData := ((t.payload.moved p).getLastD t.opening).toUInt32,
    latestDataWrites := t.payload.sent.reverse ++ t.opening :: s.latestDataWrites }

/-- There are three ways that a transaction can go. -/
theorem ways (s : Simulator) (t : Transaction) :
    t.budget ≤ s.heldReads ∨
    s.heldReads < t.budget ∧ (s.target? t = none ∨ 0 < s.nacks ∨ s.stalled = true) ∨
    ∃ p, s.heldReads < t.budget ∧ s.target? t = some p ∧ s.nacks = 0 ∧ s.stalled = false := by
  rcases Nat.lt_or_ge s.heldReads t.budget with hfree | hheld
  · by_cases hrefused : s.target? t = none ∨ 0 < s.nacks ∨ s.stalled = true
    · exact .inr (.inl ⟨hfree, hrefused⟩)
    · simp only [not_or, Bool.not_eq_true, Nat.not_lt, Nat.le_zero] at hrefused
      obtain ⟨hattached, hnacks, hstalled⟩ := hrefused
      obtain ⟨p, hp⟩ := Option.ne_none_iff_exists'.mp hattached
      exact .inr (.inr ⟨p, hfree, hp, hnacks, hstalled⟩)
  · exact .inl hheld

theorem run_held (hbase : s.base = base) (t : Transaction) (hheld : t.budget ≤ s.heldReads) :
    t.run (bare base) s = (.error .busFree, t.payload, s.looked t.budget) := by
  rw [Transaction.run, awaitFree_held hbase hheld]

/-- A transaction that gets the bus is its transfer between a START and a STOP. -/
theorem run_free (h : s.Sound base) (t : Transaction) (hfree : s.heldReads < t.budget)
    {outcome : Outcome} {payload : Payload} {after : Simulator}
    (htransfer : t.transfer (bare base) (s.looked (s.heldReads + 1)).started =
      (outcome, payload, after))
    (hafter : after.Sound base) :
    t.run (bare base) s = (outcome, payload, after.stopped) := by
  have hstart := setBits_start (s := s.looked (s.heldReads + 1)) (h.keep rfl rfl)
  rw [t.run_of_free (awaitFree_free h.base_eq hfree) (hstart ▸ htransfer), setBits_stop hafter]

/-- After the opening byte of a transaction was acknowledged. -/
def acknowledged (s : Simulator) (t : Transaction) : Simulator :=
  { s.logged t.opening with
    done := true, state := openState t.address.value t.payload.direction }

theorem sendByte_opening (hbase : s.base = base) (t : Transaction)
    (hstate : s.state = .awaitAddress) (hp : s.target? t = some p) (hnacks : s.nacks = 0) :
    sendByte (bare base) t.budget t.opening s =
      awaitDone (bare base) t.budget (s.acknowledged t) := by
  rw [sendByte, write_data hbase, Transaction.opening,
    writeData_acknowledged hstate t.address t.payload.direction hp hnacks]
  rfl

/-- The opening byte of a transaction runs out of its budget where it is not acknowledged, and
also where the acknowledgment does not show. -/
theorem sendByte_refused (hbase : s.base = base) (t : Transaction)
    (hstate : s.state = .awaitAddress)
    (hrefused : s.target? t = none ∨ 0 < s.nacks ∨ s.stalled = true) :
    ∃ done state, sendByte (bare base) t.budget t.opening s = (.error .timeout, Simulator.looked
      { s.logged t.opening with
        nacks := if (s.target? t).isSome then s.nacks - 1 else s.nacks,
        done := done, state := state } t.budget) := by
  by_cases hnack : s.target? t = none ∨ 0 < s.nacks
  · refine ⟨false, .ignored, ?_⟩
    rw [sendByte, write_data hbase, Transaction.opening,
      writeData_refused hstate t.address t.payload.direction hnack]
    exact awaitDone_undone (by exact hbase) t.budget rfl
  · obtain ⟨hattached, hnacks⟩ := not_or.mp hnack
    obtain ⟨p, hp⟩ := Option.ne_none_iff_exists'.mp hattached
    have hnacks : s.nacks = 0 := by omega
    have hstalled : s.stalled = true := by
      rcases hrefused with h | h | h
      · exact absurd h hattached
      · omega
      · exact h
    have hkeep : (if (s.target? t).isSome then s.nacks - 1 else s.nacks) = s.nacks := by
      rw [hp, hnacks]
      rfl
    refine ⟨true, openState t.address.value t.payload.direction, ?_⟩
    rw [sendByte_opening hbase t hstate hp hnacks, hkeep]
    have hundone : ((s.acknowledged t).done && !(s.acknowledged t).stalled) = false := by
      show (true && !s.stalled) = false
      rw [hstalled]
      rfl
    exact awaitDone_undone (s := s.acknowledged t) hbase t.budget hundone

theorem run_refused (h : s.Sound base) (t : Transaction) (hfree : s.heldReads < t.budget)
    (hrefused : s.target? t = none ∨ 0 < s.nacks ∨ s.stalled = true) :
    t.run (bare base) s = (.error .addressPhase, t.payload, s.refused t) := by
  obtain ⟨done, state, hsend⟩ := sendByte_refused
    (s := (s.looked (s.heldReads + 1)).started) h.base_eq t rfl hrefused
  rw [run_free h t hfree (t.transfer_of_unopened hsend) (h.keep rfl rfl)]
  simp [refused, stopped, looked, started, logged, target?, peripheral?, Nat.add_assoc]

/-- Where the opening byte is acknowledged, the transfer delivers its payload. -/
theorem transfer_delivered (hbase : s.base = base) (t : Transaction) (hbudget : 0 < t.budget)
    (hstate : s.state = .awaitAddress) (hp : s.target? t = some p) (hnacks : s.nacks = 0)
    (hstalled : s.stalled = false) :
    ∃ state, t.transfer (bare base) s = (.ok (), (t.payload.deliver p).1,
      { (s.looked (1 + t.payload.length)).place t.address.value (some (t.payload.deliver p).2) with
        done := true, state := state,
        lastData := ((t.payload.moved p).getLastD t.opening).toUInt32,
        latestDataWrites := t.payload.sent.reverse ++ t.opening :: s.latestDataWrites }) := by
  have hsend := (sendByte_opening hbase t hstate hp hnacks).trans
    (awaitDone_done (s := s.acknowledged t) hbase hbudget rfl hstalled)
  have hlast : ((s.acknowledged t).looked 1).lastData = t.opening.toUInt32 := rfl
  obtain ⟨state, hmove⟩ := moveData_deliver (s := (s.acknowledged t).looked 1) hbase hbudget
    hstalled rfl t.payload rfl hp hlast
  refine ⟨state, ?_⟩
  rw [t.transfer_of_opened hsend, hmove, looked_looked]
  rfl

theorem run_delivered (h : s.Sound base) (t : Transaction) (hfree : s.heldReads < t.budget)
    (hp : s.target? t = some p) (hnacks : s.nacks = 0) (hstalled : s.stalled = false) :
    t.run (bare base) s = (.ok (), (t.payload.deliver p).1, s.delivered t p) := by
  obtain ⟨state, htransfer⟩ := transfer_delivered (s := (s.looked (s.heldReads + 1)).started)
    h.base_eq t (Nat.zero_lt_of_lt hfree) rfl hp hnacks hstalled
  rw [run_free h t hfree htransfer (h.keep rfl rfl)]
  have hreads : s.statusReads + (s.heldReads + 1) + (1 + t.payload.length) =
      s.statusReads + s.heldReads + 2 + t.payload.length := by omega
  simp [delivered, stopped, looked, started, place, hreads]

end Simulator

end Firmware.I2c
