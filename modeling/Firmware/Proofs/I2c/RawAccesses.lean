/-
  Firmware: raw accesses to a simulator, to any address and in any order. To the bus an access is
  a START, a STOP, a data byte or nothing, and what it does to the bus and to the peripherals
  depends on nothing else but the state of the bus.
-/
import Firmware.Proofs.I2c.RegisterMap
import Firmware.Proofs.I2c.SimulatedTransfer

namespace Firmware.I2c

/-- An access made on a simulator directly. -/
inductive RawAccess where
  | read (address : UInt64)
  | write (address : UInt64) (word : UInt32)
  deriving DecidableEq

/-- What an access is to the bus. -/
inductive BusEvent where
  | start
  | stop
  | data (word : UInt32)
  deriving DecidableEq

/-- What an access is to the bus of a simulator at `base`: a control word with STOP ends a
transfer, one with START alone begins one, and a word for the data register is a byte. -/
def RawAccess.event? (base : UInt64) : RawAccess → Option BusEvent
  | .read _ => none
  | .write address word =>
    if address = base + controlOffset then
      let flags := ControlFlags.ofWord word
      if flags.stop then some .stop else if flags.start then some .start else none
    else if address = base + dataOffset then some (.data word)
    else none

namespace RawAccess

variable {base : UInt64}

theorem event?_write_control (base : UInt64) (word : UInt32) :
    (write (base + controlOffset) word).event? base =
      let flags := ControlFlags.ofWord word
      if flags.stop then some .stop else if flags.start then some .start else none :=
  if_pos rfl

theorem event?_write_data (base : UInt64) (word : UInt32) :
    (write (base + dataOffset) word).event? base = some (.data word) := by
  rw [event?, if_neg (control_ne_data base).symm, if_pos rfl]

/-- What is an event is a write to the control register or to the data register. -/
theorem eq_write_of_event {access : RawAccess} {event : BusEvent}
    (h : access.event? base = some event) :
    (∃ word, access = .write (base + controlOffset) word) ∨
      ∃ word, access = .write (base + dataOffset) word := by
  cases access with
  | read address => cases h
  | write address word =>
    by_cases hcontrol : address = base + controlOffset
    · exact .inl ⟨word, hcontrol ▸ rfl⟩
    · by_cases hdata : address = base + dataOffset
      · exact .inr ⟨word, hdata ▸ rfl⟩
      · rw [event?, if_neg hcontrol, if_neg hdata] at h
        cases h

theorem event?_eq_start_iff {access : RawAccess} :
    access.event? base = some .start ↔ ∃ word, access = .write (base + controlOffset) word ∧
      (ControlFlags.ofWord word).start = true ∧ (ControlFlags.ofWord word).stop = false := by
  constructor
  · intro h
    rcases eq_write_of_event h with ⟨word, rfl⟩ | ⟨word, rfl⟩
    · rw [event?_write_control] at h
      cases hstop : (ControlFlags.ofWord word).stop with
      | true => simp [hstop] at h
      | false => exact ⟨word, rfl, by simpa [hstop] using h, hstop⟩
    · rw [event?_write_data] at h
      cases h
  · rintro ⟨word, rfl, hstart, hstop⟩
    rw [event?_write_control]
    simp [hstart, hstop]

theorem event?_eq_stop_iff {access : RawAccess} :
    access.event? base = some .stop ↔ ∃ word, access = .write (base + controlOffset) word ∧
      (ControlFlags.ofWord word).stop = true := by
  constructor
  · intro h
    rcases eq_write_of_event h with ⟨word, rfl⟩ | ⟨word, rfl⟩
    · rw [event?_write_control] at h
      cases hstop : (ControlFlags.ofWord word).stop with
      | true => exact ⟨word, rfl, hstop⟩
      | false => simp [hstop] at h
    · rw [event?_write_data] at h
      cases h
  · rintro ⟨word, rfl, hstop⟩
    rw [event?_write_control]
    simp [hstop]

theorem event?_eq_data_iff {access : RawAccess} {word : UInt32} :
    access.event? base = some (.data word) ↔ access = .write (base + dataOffset) word := by
  constructor
  · intro h
    rcases eq_write_of_event h with ⟨word', rfl⟩ | ⟨word', rfl⟩
    · rw [event?_write_control] at h
      dsimp only at h
      split at h
      · cases h
      · split at h <;> cases h
    · rw [event?_write_data] at h
      cases h
      rfl
  · rintro rfl
    exact event?_write_data base word

end RawAccess

namespace Simulator

/-- A simulator after an access. -/
def accessed (s : Simulator) : RawAccess → Simulator
  | .read address => (registers.read address s).2
  | .write address word => registers.write address word s

/-- A simulator after accesses, made one after the other. -/
def afterAll (s : Simulator) (accesses : List RawAccess) : Simulator :=
  accesses.foldl accessed s

/-- The memory of the peripheral at an address. -/
def memory? (s : Simulator) (address : UInt8) : Option (Vector UInt8 memorySize) :=
  (s.peripheral? address).map Peripheral.memory

variable {base : UInt64} {s : Simulator} {access : RawAccess}

theorem afterAll_append (s : Simulator) (first second : List RawAccess) :
    s.afterAll (first ++ second) = (s.afterAll first).afterAll second := List.foldl_append

theorem afterAll_concat (s : Simulator) (accesses : List RawAccess) (access : RawAccess) :
    s.afterAll (accesses ++ [access]) = (s.afterAll accesses).accessed access :=
  afterAll_append s accesses [access]

theorem Sound.accessed (h : s.Sound base) (access : RawAccess) :
    (s.accessed access).Sound base := by
  cases access with
  | read address => exact h.read address
  | write address word => exact h.write address word

theorem Sound.afterAll (h : s.Sound base) (accesses : List RawAccess) :
    (s.afterAll accesses).Sound base := by
  induction accesses generalizing s with
  | nil => exact h
  | cons access rest ih => exact ih (h.accessed access)

/-! ## What an access does -/

theorem sub_eq_iff {address base offset : UInt64} :
    address - base = offset ↔ address = base + offset := by
  rw [UInt64.sub_eq_iff_eq_add, UInt64.add_comm]

/-- An access that is nothing to the bus moves the pointer of a peripheral that is read from. -/
structure Silent (s s' : Simulator) : Prop where
  state : s'.state = s.state
  done : s'.done = s.done
  memory address : s'.memory? address = s.memory? address
  others address : s.state ≠ .reading address → s'.peripheral? address = s.peripheral? address

theorem Silent.of_peripherals {s s' : Simulator} (hstate : s'.state = s.state)
    (hdone : s'.done = s.done) (hperipherals : s'.peripherals = s.peripherals) : s.Silent s' where
  state := hstate
  done := hdone
  memory address := by rw [memory?, peripheral?_congr hperipherals, memory?]
  others address _ := peripheral?_congr hperipherals address

theorem silent_readData (s : Simulator) : s.Silent s.readData.2 := by
  unfold readData
  split
  · rename_i address hstate
    split
    · rename_i p hp
      refine ⟨rfl, rfl, fun other => ?_, fun other hother => ?_⟩
      · show ((s.place address (some p.advance)).peripheral? other).map _ = _
        by_cases heq : other = address
        · rw [heq, peripheral?_place, memory?, hp]
          rfl
        · rw [peripheral?_place_ne s heq, memory?]
      · exact peripheral?_place_ne s (fun h => hother (by rw [hstate, h])) _
    · exact .of_peripherals rfl rfl rfl
  · exact .of_peripherals rfl rfl rfl

theorem silent_read (s : Simulator) (address : UInt64) : s.Silent (registers.read address s).2 := by
  simp only [registers]
  repeat' split
  · exact .of_peripherals rfl rfl rfl
  · exact .of_peripherals rfl rfl rfl
  · exact silent_readData s
  · exact .of_peripherals rfl rfl rfl
  · exact .of_peripherals rfl rfl rfl

theorem accessed_control (hbase : s.base = base) (word : UInt32) :
    s.accessed (.write (base + controlOffset) word) = s.writeControl word := by
  simp only [accessed, registers, hbase, base_add_sub]
  rfl

/-- What is no event leaves the bus alone. -/
theorem accessed_silent (hbase : s.base = base) (hevent : access.event? base = none) :
    s.Silent (s.accessed access) := by
  cases access with
  | read address => exact silent_read s address
  | write address word =>
    by_cases hcontrol : address = base + controlOffset
    · rw [hcontrol, RawAccess.event?_write_control] at hevent
      rw [hcontrol, accessed_control hbase, writeControl]
      cases hstop : (ControlFlags.ofWord word).stop with
      | true => simp [hstop] at hevent
      | false =>
        cases hstart : (ControlFlags.ofWord word).start with
        | true => simp [hstop, hstart] at hevent
        | false => exact .of_peripherals rfl rfl rfl
    · by_cases hdata : address = base + dataOffset
      · rw [hdata, RawAccess.event?_write_data] at hevent
        cases hevent
      · simp only [accessed, registers, hbase, sub_eq_iff, if_neg hcontrol, if_neg hdata]
        split <;> exact .of_peripherals rfl rfl rfl

/-- A START expects an opening byte. -/
theorem accessed_start (hbase : s.base = base) (hevent : access.event? base = some .start) :
    (s.accessed access).state = .awaitAddress ∧ (s.accessed access).done = false ∧
      (s.accessed access).peripherals = s.peripherals := by
  obtain ⟨word, rfl, hstart, hstop⟩ := RawAccess.event?_eq_start_iff.mp hevent
  rw [accessed_control hbase, writeControl]
  simp only [hstart, hstop]
  exact ⟨rfl, rfl, rfl⟩

/-- A STOP leaves the bus idle, also if START is set with it. -/
theorem accessed_stop (hbase : s.base = base) (hevent : access.event? base = some .stop) :
    (s.accessed access).state = .idle ∧ (s.accessed access).done = false ∧
      (s.accessed access).peripherals = s.peripherals := by
  obtain ⟨word, rfl, hstop⟩ := RawAccess.event?_eq_stop_iff.mp hevent
  rw [accessed_control hbase, writeControl]
  simp only [hstop]
  refine ⟨rfl, rfl, ?_⟩
  cases (ControlFlags.ofWord word).start <;> rfl

theorem accessed_data (hbase : s.base = base) (word : UInt32) :
    s.accessed (.write (base + dataOffset) word) = s.writeData word := by
  simp only [accessed, registers, hbase, base_add_sub]
  rfl

/-! ## What a data byte does -/

theorem openTransfer_cases (s : Simulator) (byte : UInt8) :
    (s.openTransfer byte).peripherals = s.peripherals ∧
      ((s.openTransfer byte).state = .ignored ∧ (s.openTransfer byte).done = false ∨
        (s.peripheral? (byte >>> 1)).isSome ∧ s.nacks = 0 ∧
          (s.openTransfer byte).state =
            if byte &&& 1 = 0 then .writing (byte >>> 1) false else .reading (byte >>> 1)) := by
  unfold openTransfer
  dsimp only
  cases s.peripheral? (byte >>> 1) with
  | none => exact ⟨rfl, .inl ⟨rfl, rfl⟩⟩
  | some p =>
    dsimp only
    split
    · exact ⟨rfl, .inl ⟨rfl, rfl⟩⟩
    · rename_i hnacks
      have hwilling : s.nacks = 0 := Nat.eq_zero_of_not_pos hnacks
      split
      · rename_i hread
        rw [if_neg (by simpa using hread)]
        exact ⟨rfl, .inr ⟨rfl, hwilling, rfl⟩⟩
      · rename_i hwrite
        rw [if_pos (by simpa using hwrite)]
        exact ⟨rfl, .inr ⟨rfl, hwilling, rfl⟩⟩

theorem peripheral?_storeByte_ne (s : Simulator) {address other : UInt8} (hne : other ≠ address)
    (pointerSet : Bool) (byte : UInt8) :
    (s.storeByte address pointerSet byte).peripheral? other = s.peripheral? other := by
  unfold storeByte
  split
  · exact peripheral?_place_ne s hne _
  · rfl

theorem memory?_storeByte_first (s : Simulator) (address other : UInt8) (byte : UInt8) :
    (s.storeByte address false byte).memory? other = s.memory? other := by
  by_cases heq : other = address
  · subst heq
    unfold storeByte
    cases hp : s.peripheral? other with
    | none => rfl
    | some p =>
      show ((s.place other (some { p with pointer := byte })).peripheral? other).map _ = _
      rw [peripheral?_place, memory?, hp]
      rfl
  · rw [memory?, peripheral?_storeByte_ne s heq, memory?]

/-- A simulator that has taken note of a word for the data register. -/
def noted (s : Simulator) (word : UInt32) : Simulator :=
  { s with latestDataWrites := word.toUInt8 :: s.latestDataWrites, lastData := word }

theorem writeData_noted (s : Simulator) (word : UInt32) :
    s.writeData word =
      match s.state with
      | .awaitAddress => (s.noted word).openTransfer word.toUInt8
      | .writing address pointerSet => (s.noted word).storeByte address pointerSet word.toUInt8
      | .idle | .reading _ | .ignored => { s.noted word with done := false } := rfl

/-- An opening byte is ignored, or it is acknowledged by the peripheral that it names. -/
theorem writeData_opens (hstate : s.state = .awaitAddress) (word : UInt32) :
    (s.writeData word).peripherals = s.peripherals ∧
      ((s.writeData word).state = .ignored ∧ (s.writeData word).done = false ∨
        (s.peripheral? (word.toUInt8 >>> 1)).isSome ∧ s.nacks = 0 ∧
          (s.writeData word).state =
            if word.toUInt8 &&& 1 = 0 then .writing (word.toUInt8 >>> 1) false
            else .reading (word.toUInt8 >>> 1)) := by
  rw [writeData_noted, hstate]
  exact openTransfer_cases (s.noted word) word.toUInt8

/-- A byte for a peripheral is felt by it alone, and the first one leaves its memory alone. -/
theorem writeData_stores {address : UInt8} {pointerSet : Bool}
    (hstate : s.state = .writing address pointerSet) (word : UInt32) :
    (s.writeData word).state = .writing address true ∧
      (∀ other, other ≠ address → (s.writeData word).peripheral? other = s.peripheral? other) ∧
      (pointerSet = false → ∀ other, (s.writeData word).memory? other = s.memory? other) := by
  rw [writeData_noted, hstate]
  refine ⟨rfl, fun other hne => peripheral?_storeByte_ne _ hne _ _, ?_⟩
  rintro rfl other
  exact memory?_storeByte_first (s.noted word) address other word.toUInt8

/-- Any other byte is dropped. -/
theorem writeData_drops
    (h : s.state = .idle ∨ s.state = .ignored ∨ ∃ address, s.state = .reading address)
    (word : UInt32) :
    (s.writeData word).state = s.state ∧ (s.writeData word).done = false ∧
      (s.writeData word).peripherals = s.peripherals := by
  rw [writeData_noted]
  rcases h with hstate | hstate | ⟨address, hstate⟩ <;>
    · rw [hstate]
      exact ⟨hstate, rfl, rfl⟩

end Simulator

end Firmware.I2c
