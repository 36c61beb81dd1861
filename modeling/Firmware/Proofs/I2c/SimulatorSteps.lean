/-
  Firmware: what each register access does to a simulator that a controller drives at its base,
  one statement for every access that a transaction makes, and what the bounded waits make of
  looks at the status.
-/
import Firmware.Proofs.I2c.Reachable
import Firmware.Proofs.Polling
import Firmware.I2c.Transaction

namespace Firmware.I2c

namespace Simulator

variable {base : UInt64} {s : Simulator}

/-! ## The window of a controller at the base -/

theorem base_add_sub (base offset : UInt64) : base + offset - base = offset := by
  rw [UInt64.add_comm, UInt64.add_sub_cancel]

/-- What a controller at the base reads is told by the offset. -/
theorem bare_read (hbase : s.base = base) (offset : UInt64) :
    (bare base).read offset s =
      if offset = statusOffset then s.readStatus
      else if offset = controlOffset then (s.control, s)
      else if offset = dataOffset then s.readData
      else if offset = clockOffset then (s.clock, s)
      else (0, s) := by
  subst hbase
  simp only [bare, alone, Hardware.window, Registers.window, Hardware.spinning, registers,
    base_add_sub]

/-- What a controller at the base writes is told by the offset. -/
theorem bare_write (hbase : s.base = base) (offset : UInt64) (word : UInt32) :
    (bare base).write offset word s =
      if offset = controlOffset then s.writeControl word
      else if offset = dataOffset then s.writeData word
      else if offset = clockOffset then { s with clock := word }
      else s := by
  subst hbase
  simp only [bare, alone, Hardware.window, Registers.window, Hardware.spinning, registers,
    base_add_sub]

theorem read_status (hbase : s.base = base) :
    (bare base).read statusOffset s = s.readStatus :=
  bare_read hbase statusOffset

theorem read_control (hbase : s.base = base) :
    (bare base).read controlOffset s = (s.control, s) :=
  bare_read hbase controlOffset

theorem read_data (hbase : s.base = base) :
    (bare base).read dataOffset s = s.readData :=
  bare_read hbase dataOffset

theorem write_control (hbase : s.base = base) (word : UInt32) :
    (bare base).write controlOffset word s = s.writeControl word :=
  bare_write hbase controlOffset word

theorem write_data (hbase : s.base = base) (word : UInt32) :
    (bare base).write dataOffset word s = s.writeData word :=
  bare_write hbase dataOffset word

theorem write_clock (hbase : s.base = base) (hz : UInt32) :
    (bare base).write clockOffset hz s = { s with clock := hz } :=
  bare_write hbase clockOffset hz

/-! ## Looking at the status -/

/-- What the status says. -/
def flags (s : Simulator) : StatusFlags where
  busy := 0 < s.heldReads
  done := s.done && !s.stalled

/-- After `n` looks at the status. -/
def looked (s : Simulator) (n : Nat) : Simulator :=
  { s with statusReads := s.statusReads + n, heldReads := s.heldReads - n }

theorem looked_looked (s : Simulator) (m n : Nat) :
    (s.looked m).looked n = s.looked (m + n) := by
  simp only [looked, Nat.add_assoc, Nat.sub_sub]

theorem ofWord_toWord (flags : StatusFlags) : StatusFlags.ofWord flags.toWord = flags := by
  obtain ⟨busy, done⟩ := flags
  cases busy <;> cases done <;> decide

/-- The condition of a wait, evaluated on a simulator. -/
def look (base : UInt64) (ready : StatusFlags → Bool) (s : Simulator) : Bool × Simulator :=
  (ready (.ofWord ((bare base).read statusOffset s).1), ((bare base).read statusOffset s).2)

theorem look_eq (hbase : s.base = base) (ready : StatusFlags → Bool) :
    look base ready s = (ready s.flags, s.looked 1) := by
  rw [look, read_status hbase]
  show (ready (.ofWord s.flags.toWord), s.looked 1) = _
  rw [ofWord_toWord]

theorem iterate_look (hbase : s.base = base) (ready : StatusFlags → Bool) (n : Nat) :
    (failedRound (look base ready) id)^[n] s = s.looked n := by
  induction n with
  | zero => rfl
  | succ n ih =>
    rw [Function.iterate_succ_apply', ih, failedRound, look_eq (s := s.looked n) hbase,
      id, looked_looked]

/-- A wait that no look ends runs out. -/
theorem awaitStatus_none (hbase : s.base = base) (budget : Nat) (ready : StatusFlags → Bool)
    (h : ∀ n < budget, ready (s.looked n).flags = false) :
    awaitStatus (bare base) budget ready s = (.error .timeout, s.looked budget) := by
  have hpoll := pollUntil_none (look base ready) id budget s
    (fun n hn => by rw [iterate_look hbase, look_eq (s := s.looked n) hbase, h n hn])
  rw [iterate_look hbase] at hpoll
  exact hpoll

/-- A wait ends with the first look that finds what it waits for. -/
theorem awaitStatus_first (hbase : s.base = base) (budget n : Nat) (hn : n < budget)
    (ready : StatusFlags → Bool) (hbefore : ∀ i < n, ready (s.looked i).flags = false)
    (hnow : ready (s.looked n).flags = true) :
    awaitStatus (bare base) budget ready s = (.ok (n + 1), s.looked (n + 1)) := by
  have hlook (i : Nat) : look base ready ((failedRound (look base ready) id)^[i] s) =
      (ready (s.looked i).flags, s.looked (i + 1)) := by
    rw [iterate_look hbase, look_eq (s := s.looked i) hbase, looked_looked]
  have hpoll := pollUntil_first (look base ready) id budget n s hn
    (fun i hi => by rw [hlook, hbefore i hi]) (by rw [hlook, hnow])
  rw [hlook] at hpoll
  exact hpoll

theorem awaitFree_held (hbase : s.base = base) {budget : Nat} (hheld : budget ≤ s.heldReads) :
    awaitFree (bare base) budget s = (.error .timeout, s.looked budget) := by
  apply awaitStatus_none hbase
  intro n hn
  have : 0 < s.heldReads - n := by omega
  simp [flags, looked, this]

theorem awaitFree_free (hbase : s.base = base) {budget : Nat}
    (hfree : s.heldReads < budget) :
    awaitFree (bare base) budget s =
      (.ok (s.heldReads + 1), s.looked (s.heldReads + 1)) := by
  apply awaitStatus_first hbase _ _ hfree
  · intro i hi
    have : 0 < s.heldReads - i := by omega
    simp [flags, looked, this]
  · simp [flags, looked]

theorem awaitDone_done (hbase : s.base = base) {budget : Nat} (hbudget : 0 < budget)
    (hdone : s.done = true) (hstalled : s.stalled = false) :
    awaitDone (bare base) budget s = (.ok 1, s.looked 1) := by
  apply awaitStatus_first hbase _ 0 hbudget
  · intro i hi
    omega
  · simp [flags, looked, hdone, hstalled]

theorem awaitDone_undone (hbase : s.base = base) (budget : Nat)
    (h : (s.done && !s.stalled) = false) :
    awaitDone (bare base) budget s = (.error .timeout, s.looked budget) := by
  apply awaitStatus_none hbase
  intro n hn
  exact h

/-! ## START and STOP -/

/-- After a START. -/
def started (s : Simulator) : Simulator :=
  { s with starts := s.starts + 1, done := false, state := .awaitAddress }

/-- After a STOP. -/
def stopped (s : Simulator) : Simulator :=
  { s with stops := s.stops + 1, done := false, state := .idle }

theorem or_startBit {control : UInt32} (h : control = 0 ∨ control = ackBit) :
    ControlFlags.ofWord (control ||| startBit) = ⟨true, false, control == ackBit⟩ ∧
      (control ||| startBit) &&& ackBit = control := by
  rcases h with rfl | rfl <;> decide

theorem or_stopBit {control : UInt32} (h : control = 0 ∨ control = ackBit) :
    ControlFlags.ofWord (control ||| stopBit) = ⟨false, true, control == ackBit⟩ ∧
      (control ||| stopBit) &&& ackBit = control := by
  rcases h with rfl | rfl <;> decide

/-- With no other bit than the acknowledge bit in the control register, a START that is set there
comes alone. -/
theorem setBits_start (h : s.Sound base) :
    (bare base).setBits controlOffset startBit s = s.started := by
  obtain ⟨hflags, hcontrol⟩ := or_startBit h.control_ack
  show (bare base).write controlOffset (((bare base).read controlOffset s).1 ||| startBit)
    ((bare base).read controlOffset s).2 = _
  rw [read_control h.base_eq, write_control h.base_eq]
  simp only [writeControl, hflags, hcontrol]
  rfl

theorem setBits_stop (h : s.Sound base) :
    (bare base).setBits controlOffset stopBit s = s.stopped := by
  obtain ⟨hflags, hcontrol⟩ := or_stopBit h.control_ack
  show (bare base).write controlOffset (((bare base).read controlOffset s).1 ||| stopBit)
    ((bare base).read controlOffset s).2 = _
  rw [read_control h.base_eq, write_control h.base_eq]
  simp only [writeControl, hflags, hcontrol]
  rfl

/-! ## Settings -/

/-- A control word with neither START nor STOP only sets the acknowledge bit. -/
theorem writeControl_ack {word : UInt32} (h : word = 0 ∨ word = ackBit) :
    s.writeControl word = { s with control := word } := by
  have hflags : ControlFlags.ofWord word = ⟨false, false, word == ackBit⟩ ∧
      word &&& ackBit = word := by
    rcases h with rfl | rfl <;> decide
  simp only [writeControl, hflags.1, hflags.2]
  rfl

theorem setBits_ack (h : s.Sound base) :
    (bare base).setBits controlOffset ackBit s = { s with control := ackBit } := by
  have hword : s.control ||| ackBit = ackBit := by
    rcases h.control_ack with hzero | hack
    · rw [hzero]
      rfl
    · rw [hack]
      rfl
  show (bare base).write controlOffset (((bare base).read controlOffset s).1 ||| ackBit)
    ((bare base).read controlOffset s).2 = _
  rw [read_control h.base_eq, write_control h.base_eq, hword, writeControl_ack (.inr rfl)]

theorem clearBits_ack (h : s.Sound base) :
    (bare base).clearBits controlOffset ackBit s = { s with control := 0 } := by
  have hword : s.control &&& ~~~ackBit = 0 := by
    rcases h.control_ack with hzero | hack
    · rw [hzero]
      rfl
    · rw [hack]
      rfl
  show (bare base).write controlOffset (((bare base).read controlOffset s).1 &&& ~~~ackBit)
    ((bare base).read controlOffset s).2 = _
  rw [read_control h.base_eq, write_control h.base_eq, hword, writeControl_ack (.inl rfl)]

/-- Reading a register generates no condition. -/
theorem read_conditions (s : Simulator) (address : UInt64) :
    (registers.read address s).2.starts = s.starts ∧
      (registers.read address s).2.stops = s.stops := by
  have hdata : s.readData.2.starts = s.starts ∧ s.readData.2.stops = s.stops := by
    unfold readData
    repeat' split
    all_goals exact ⟨rfl, rfl⟩
  simp only [registers]
  repeat' split
  all_goals first
    | exact hdata
    | exact ⟨rfl, rfl⟩

end Simulator

end Firmware.I2c
