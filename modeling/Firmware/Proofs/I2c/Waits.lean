/-
  Firmware: the waits of a transaction, on any hardware. A wait looks at the status until it finds
  what it waits for or has used up its budget, and calls the hook after each look that did not.
  A transaction waits for a free bus, for its opening byte and for each data byte, and ends with the
  first wait that runs out.
-/
import Firmware.Proofs.I2c.Agreement
import Firmware.Proofs.I2c.Controller
import Firmware.Proofs.I2c.RegisterMap

namespace Firmware.I2c

/-! ## One wait -/

/-- What a transaction waits for. -/
inductive Awaited where
  /-- A free bus. -/
  | free
  /-- A byte that was transferred. -/
  | done
  deriving DecidableEq

def Awaited.ready : Awaited → StatusFlags → Bool
  | .free, flags => !flags.busy
  | .done, flags => flags.done

/-- A wait: what for, and the status words that it saw, one a look. -/
structure Wait where
  awaited : Awaited
  words : List UInt32

namespace Wait

/-- Whether a status word shows what is waited for. -/
def shows (wait : Wait) (word : UInt32) : Bool := wait.awaited.ready (.ofWord word)

/-- The looks at the status, and a call of the hook after each that did not show it. -/
def occurrences (base : UInt64) (wait : Wait) : List Occurrence :=
  wait.words.flatMap fun word =>
    .access (.read (base + statusOffset) word) :: if wait.shows word then [] else [.relaxed]

/-- The wait ended in time: its last look was the first to show what it waited for. -/
def Met (budget : Nat) (wait : Wait) : Prop :=
  ∃ earlier last, wait.words = earlier ++ [last] ∧ earlier.length < budget ∧
    (∀ word ∈ earlier, wait.shows word = false) ∧ wait.shows last = true

/-- The wait used up its budget, and no look showed what it waited for. -/
def RanOut (budget : Nat) (wait : Wait) : Prop :=
  wait.words.length = budget ∧ ∀ word ∈ wait.words, wait.shows word = false

variable {budget : Nat} {awaited : Awaited} {word : UInt32} {words : List UInt32}

theorem met_singleton (h : awaited.ready (.ofWord word) = true) :
    Met (budget + 1) ⟨awaited, [word]⟩ :=
  ⟨[], word, rfl, Nat.zero_lt_succ budget, nofun, h⟩

theorem Met.cons (hmet : Met budget ⟨awaited, words⟩) (h : awaited.ready (.ofWord word) = false) :
    Met (budget + 1) ⟨awaited, word :: words⟩ := by
  obtain ⟨earlier, last, hwords, hless, hearlier, hlast⟩ := hmet
  obtain rfl : words = earlier ++ [last] := hwords
  exact ⟨word :: earlier, last, rfl, Nat.succ_lt_succ hless, List.forall_mem_cons.mpr ⟨h, hearlier⟩,
    hlast⟩

theorem RanOut.cons (hran : RanOut budget ⟨awaited, words⟩)
    (h : awaited.ready (.ofWord word) = false) :
    RanOut (budget + 1) ⟨awaited, word :: words⟩ :=
  ⟨congrArg (· + 1) hran.1, List.forall_mem_cons.mpr ⟨h, hran.2⟩⟩

theorem occurrences_cons (base : UInt64) :
    occurrences base ⟨awaited, word :: words⟩ =
      .access (.read (base + statusOffset) word) ::
        ((if awaited.ready (.ofWord word) then [] else [.relaxed]) ++
          occurrences base ⟨awaited, words⟩) :=
  List.flatMap_cons

/-- How a wait ended. -/
inductive Ended (budget : Nat) (wait : Wait) : Bool → Prop where
  | met (h : wait.Met budget) : Ended budget wait true
  | ranOut (h : wait.RanOut budget) : Ended budget wait false

theorem Ended.cons {inTime : Bool} (hended : Ended budget ⟨awaited, words⟩ inTime)
    (h : awaited.ready (.ofWord word) = false) :
    Ended (budget + 1) ⟨awaited, word :: words⟩ inTime := by
  cases hended with
  | met hmet => exact .met (hmet.cons h)
  | ranOut hran => exact .ranOut (hran.cons h)

end Wait

section

variable {σ : Type} (hardware : Hardware σ) (base : UInt64)

theorem pollFrom_waited (awaited : Awaited) {look : Observed σ → Bool × Observed σ}
    (hlook : ∀ o, ∃ word, (look o).1 = awaited.ready (.ofWord word) ∧
      (look o).2.occurrences = o.occurrences ++ [.access (.read (base + statusOffset) word)])
    (remaining attempt : Nat) (o : Observed σ) :
    ∃ words,
      (pollFrom look hardware.observed.relax remaining attempt o).2.occurrences =
        o.occurrences ++ Wait.occurrences base ⟨awaited, words⟩ ∧
      Wait.Ended remaining ⟨awaited, words⟩
        (pollFrom look hardware.observed.relax remaining attempt o).1.isOk := by
  induction remaining generalizing attempt o with
  | zero => exact ⟨[], (List.append_nil _).symm, .ranOut ⟨rfl, nofun⟩⟩
  | succ remaining ih =>
    obtain ⟨word, hready, hlooked⟩ := hlook o
    unfold pollFrom
    generalize look o = looked at hready hlooked ⊢
    obtain ⟨ready, after⟩ := looked
    cases ready with
    | true =>
      refine ⟨[word], ?_, .met (Wait.met_singleton hready.symm)⟩
      rw [Wait.occurrences_cons, if_pos hready.symm]
      exact hlooked
    | false =>
      obtain ⟨words, hrest, hended⟩ := ih (attempt + 1) (hardware.observed.relax after)
      refine ⟨word :: words, ?_, hended.cons hready.symm⟩
      rw [Wait.occurrences_cons, if_neg (Bool.eq_false_iff.mp hready.symm)]
      dsimp only at hlooked ⊢
      rw [hrest, Observed.occurrences_relax, hlooked, List.append_assoc, List.append_assoc]
      rfl

theorem awaitStatus_waited (awaited : Awaited) (budget : Nat) (o : Observed σ) :
    ∃ words,
      (awaitStatus (hardware.observed.window base) budget awaited.ready o).2.occurrences =
        o.occurrences ++ Wait.occurrences base ⟨awaited, words⟩ ∧
      Wait.Ended budget ⟨awaited, words⟩
        (awaitStatus (hardware.observed.window base) budget awaited.ready o).1.isOk := by
  refine pollFrom_waited hardware base awaited (fun o => ⟨_, rfl, ?_⟩) budget 1 o
  exact Observed.occurrences_read hardware (base + statusOffset) o

end

/-! ## Waits in a row -/

/-- What is asked for is waits, one after the other, and accesses to other registers than the status
between them. -/
inductive Waited (base : UInt64) : List Wait → List Occurrence → Prop where
  | nil : Waited base [] []
  | access {access : Access} {waits : List Wait} {occurrences : List Occurrence}
    (haddress : access.address ≠ base + statusOffset) (hrest : Waited base waits occurrences) :
    Waited base waits (.access access :: occurrences)
  | wait (wait : Wait) {waits : List Wait} {occurrences : List Occurrence}
    (hrest : Waited base waits occurrences) :
    Waited base (wait :: waits) (wait.occurrences base ++ occurrences)

/-- Each wait ends in time, up to one that runs out; whether there is none that does. -/
inductive InTurn (budget : Nat) : List Wait → Bool → Prop where
  | nil : InTurn budget [] true
  | met {wait : Wait} {waits : List Wait} {inTime : Bool} (hmet : wait.Met budget)
    (hrest : InTurn budget waits inTime) : InTurn budget (wait :: waits) inTime
  | ranOut {wait : Wait} (hran : wait.RanOut budget) : InTurn budget [wait] false

variable {base : UInt64} {budget : Nat} {waits waits' : List Wait}
  {occurrences occurrences' : List Occurrence} {inTime : Bool}

theorem Waited.append (h : Waited base waits occurrences) (h' : Waited base waits' occurrences') :
    Waited base (waits ++ waits') (occurrences ++ occurrences') := by
  induction h with
  | nil => exact h'
  | access haddress _ ih => exact .access haddress ih
  | wait wait _ ih =>
    rw [List.append_assoc]
    exact .wait wait ih

theorem InTurn.append (h : InTurn budget waits true) (h' : InTurn budget waits' inTime) :
    InTurn budget (waits ++ waits') inTime := by
  generalize hfirst : true = first at h
  induction h with
  | nil => exact h'
  | met hmet _ ih => exact .met hmet (ih hfirst)
  | ranOut => cases hfirst

/-! ## The waits of a transfer -/

/-- A part of a transaction that waits for up to `count` bytes, once a byte. -/
structure BytesAwaited {σ : Type} (base : UInt64) (budget count : Nat) (before after : Observed σ)
    (waits : List Wait) (inTime : Bool) : Prop where
  occurrences : ∃ added, Waited base waits added ∧
    after.occurrences = before.occurrences ++ added
  inTurn : InTurn budget waits inTime
  done : ∀ wait ∈ waits, wait.awaited = .done
  length_le : waits.length ≤ count
  length_eq : inTime = true → waits.length = count

namespace BytesAwaited

variable {σ : Type} {count count' : Nat} {before between after : Observed σ}

theorem refl (o : Observed σ) : BytesAwaited base budget 0 o o [] true where
  occurrences := ⟨[], .nil, (List.append_nil _).symm⟩
  inTurn := .nil
  done := nofun
  length_le := Nat.le_refl 0
  length_eq _ := rfl

/-- An access to another register than the status. -/
theorem access {access : Access}
    (h : after.occurrences = before.occurrences ++ [.access access])
    (haddress : access.address ≠ base + statusOffset) :
    BytesAwaited base budget 0 before after [] true where
  occurrences := ⟨[.access access], .access haddress .nil, h⟩
  inTurn := .nil
  done := nofun
  length_le := Nat.le_refl 0
  length_eq _ := rfl

theorem wait {words : List UInt32} (hended : Wait.Ended budget ⟨.done, words⟩ inTime)
    (h : after.occurrences = before.occurrences ++ Wait.occurrences base ⟨.done, words⟩) :
    BytesAwaited base budget 1 before after [⟨.done, words⟩] inTime where
  occurrences := ⟨_, .wait _ .nil, by rw [List.append_nil]; exact h⟩
  inTurn := by
    cases hended with
    | met hmet => exact .met hmet .nil
    | ranOut hran => exact .ranOut hran
  done wait hmem := by rw [List.mem_singleton.mp hmem]
  length_le := Nat.le_refl 1
  length_eq _ := rfl

/-- One part after another that ended in time. -/
theorem append (h : BytesAwaited base budget count before between waits true)
    (h' : BytesAwaited base budget count' between after waits' inTime) :
    BytesAwaited base budget (count + count') before after (waits ++ waits') inTime := by
  obtain ⟨first, hfirst, hbetween⟩ := h.occurrences
  obtain ⟨second, hsecond, hafter⟩ := h'.occurrences
  constructor
  · exact ⟨first ++ second, hfirst.append hsecond, by
      rw [hafter, hbetween, List.append_assoc]⟩
  · exact h.inTurn.append h'.inTurn
  · intro wait hmem
    exact (List.mem_append.mp hmem).elim (h.done wait) (h'.done wait)
  · rw [List.length_append]
    exact Nat.add_le_add h.length_le h'.length_le
  · intro hinTime
    rw [List.length_append, h.length_eq rfl, h'.length_eq hinTime]

/-- The accesses that close a part, also one that ran out. -/
theorem close (h : BytesAwaited base budget count before between waits inTime)
    (h' : BytesAwaited base budget 0 between after [] true) :
    BytesAwaited base budget count before after waits inTime := by
  obtain ⟨first, hfirst, hbetween⟩ := h.occurrences
  obtain ⟨second, hsecond, hafter⟩ := h'.occurrences
  refine ⟨⟨first ++ second, ?_, ?_⟩, h.inTurn, h.done, h.length_le, h.length_eq⟩
  · rw [← List.append_nil waits]
    exact hfirst.append hsecond
  · rw [hafter, hbetween, List.append_assoc]

/-- After a wait that ran out there may have been more to wait for. -/
theorem cut (h : BytesAwaited base budget count before after waits false) (more : Nat) :
    BytesAwaited base budget (count + more) before after waits false :=
  ⟨h.occurrences, h.inTurn, h.done, Nat.le_add_right_of_le h.length_le, nofun⟩

end BytesAwaited

section

variable {σ : Type} (hardware : Hardware σ) (base : UInt64)

theorem setBits_awaited (budget : Nat) (bits : UInt32) (o : Observed σ) :
    BytesAwaited base budget 0 o
      ((hardware.observed.window base).setBits controlOffset bits o) [] true := by
  have hread := Observed.occurrences_read hardware (base + controlOffset) o
  have hwrite := Observed.occurrences_write hardware (base + controlOffset)
    ((hardware.observed.read (base + controlOffset) o).1 ||| bits)
    (hardware.observed.read (base + controlOffset) o).2
  exact (BytesAwaited.access hread (control_ne_status base)).append
    (.access hwrite (control_ne_status base))

theorem awaitDone_awaited (budget : Nat) (o : Observed σ) :
    ∃ waits, BytesAwaited base budget 1 o (awaitDone (hardware.observed.window base) budget o).2
      waits (awaitDone (hardware.observed.window base) budget o).1.isOk := by
  obtain ⟨words, hadded, hended⟩ := awaitStatus_waited hardware base .done budget o
  exact ⟨_, .wait hended hadded⟩

theorem sendByte_awaited (budget : Nat) (byte : UInt8) (o : Observed σ) :
    ∃ waits, BytesAwaited base budget 1 o
      (sendByte (hardware.observed.window base) budget byte o).2 waits
      (sendByte (hardware.observed.window base) budget byte o).1.isOk := by
  have hwrite := Observed.occurrences_write hardware (base + dataOffset) byte.toUInt32 o
  obtain ⟨waits, hwaits⟩ := awaitDone_awaited hardware base budget
    (hardware.observed.write (base + dataOffset) byte.toUInt32 o)
  exact ⟨waits, (BytesAwaited.access hwrite (data_ne_status base)).append hwaits⟩

theorem sendBytes_awaited (budget : Nat) (bytes : List UInt8) (o : Observed σ) :
    ∃ waits, BytesAwaited base budget bytes.length o
      (sendBytes (hardware.observed.window base) budget bytes o).2 waits
      (sendBytes (hardware.observed.window base) budget bytes o).1.isOk := by
  induction bytes generalizing o with
  | nil => exact ⟨[], .refl o⟩
  | cons byte rest ih =>
    obtain ⟨waits, hwaits⟩ := sendByte_awaited hardware base budget byte o
    rw [List.length_cons, Nat.add_comm]
    unfold sendBytes
    generalize sendByte (hardware.observed.window base) budget byte o = sent at hwaits ⊢
    obtain ⟨answer, after⟩ := sent
    cases answer with
    | error e => exact ⟨waits, hwaits.cut rest.length⟩
    | ok n =>
      obtain ⟨waits', hrest⟩ := ih after
      exact ⟨waits ++ waits', hwaits.append hrest⟩

theorem fillBuffer_awaited (budget : Nat) (buffer : List UInt8) (o : Observed σ) :
    ∃ waits, BytesAwaited base budget buffer.length o
      (fillBuffer (hardware.observed.window base) budget buffer o).2.2 waits
      (fillBuffer (hardware.observed.window base) budget buffer o).1.isOk := by
  induction buffer generalizing o with
  | nil => exact ⟨[], .refl o⟩
  | cons old rest ih =>
    obtain ⟨waits, hwaits⟩ := awaitDone_awaited hardware base budget o
    rw [List.length_cons, Nat.add_comm]
    unfold fillBuffer
    generalize awaitDone (hardware.observed.window base) budget o = awaited at hwaits ⊢
    obtain ⟨answer, after⟩ := awaited
    cases answer with
    | error e => exact ⟨waits, hwaits.cut rest.length⟩
    | ok n =>
      have hread := Observed.occurrences_read hardware (base + dataOffset) after
      obtain ⟨waits', hrest⟩ := ih (hardware.observed.read (base + dataOffset) after).2
      exact ⟨waits ++ waits', (hwaits.close (.access hread (data_ne_status base))).append hrest⟩

theorem transfer_awaited (t : Transaction) (o : Observed σ) :
    ∃ waits, BytesAwaited base t.budget (1 + t.payload.length) o
      (t.transfer (hardware.observed.window base) o).2.2 waits
      (t.transfer (hardware.observed.window base) o).1.isOk := by
  obtain ⟨waits, hwaits⟩ := sendByte_awaited hardware base t.budget
    (t.address.openingByte t.payload.direction) o
  unfold Transaction.transfer
  generalize sendByte (hardware.observed.window base) t.budget _ o = sent at hwaits ⊢
  obtain ⟨answer, after⟩ := sent
  cases answer with
  | error e => exact ⟨waits, hwaits.cut t.payload.length⟩
  | ok n =>
    cases t.payload with
    | write bytes =>
      obtain ⟨waits', hrest⟩ := sendBytes_awaited hardware base t.budget bytes after
      exact ⟨waits ++ waits', hwaits.append hrest⟩
    | read buffer =>
      obtain ⟨waits', hrest⟩ := fillBuffer_awaited hardware base t.budget buffer after
      exact ⟨waits ++ waits', hwaits.append hrest⟩

/-- A transaction waits for a free bus and then, once a byte, for the opening byte and the data. -/
theorem run_awaited (t : Transaction) (o : Observed σ) :
    let ran := t.run (hardware.observed.window base) o
    ∃ words waits added, Waited base (⟨.free, words⟩ :: waits) added ∧
      ran.2.2.occurrences = o.occurrences ++ added ∧
      InTurn t.budget (⟨.free, words⟩ :: waits) ran.1.isOk ∧
      (∀ wait ∈ waits, wait.awaited = .done) ∧ waits.length ≤ 1 + t.payload.length ∧
      (ran.1.isOk = true → waits.length = 1 + t.payload.length) := by
  obtain ⟨words, hfree, hended⟩ := awaitStatus_waited hardware base .free t.budget o
  unfold Transaction.run
  replace hfree : (awaitFree (hardware.observed.window base) t.budget o).2.occurrences = _ := hfree
  replace hended : Wait.Ended t.budget _
    (awaitFree (hardware.observed.window base) t.budget o).1.isOk := hended
  generalize awaitFree (hardware.observed.window base) t.budget o = awaited at hfree hended ⊢
  obtain ⟨answer, after⟩ := awaited
  cases answer with
  | error e =>
    cases hended with
    | ranOut hran =>
      refine ⟨words, [], _, .wait _ .nil, ?_, .ranOut hran, nofun, Nat.zero_le _, nofun⟩
      rw [List.append_nil]
      exact hfree
  | ok n =>
    cases hended with
    | met hmet =>
      obtain ⟨waits, htransfer⟩ := transfer_awaited hardware base t
        ((hardware.observed.window base).setBits controlOffset startBit after)
      have hstart := setBits_awaited hardware base t.budget startBit after
      have hwaits := (hstart.append htransfer).close
        (setBits_awaited hardware base t.budget stopBit _)
      rw [Nat.zero_add, List.nil_append] at hwaits
      obtain ⟨added, hadded, hafter⟩ := hwaits.occurrences
      refine ⟨words, waits, _, .wait _ hadded, ?_, .met hmet hwaits.inTurn, hwaits.done,
        hwaits.length_le, hwaits.length_eq⟩
      dsimp only at hfree
      rw [hafter, hfree, List.append_assoc]

end

/-! ## Counting -/

/-- Whether some look showed what the wait was for. -/
def Wait.succeeded (wait : Wait) : Bool := wait.words.any wait.shows

/-- How often the status was read. -/
def statusReads (base : UInt64) (occurrences : List Occurrence) : Nat :=
  occurrences.countP fun
    | .access (.read address _) => address = base + statusOffset
    | _ => false

@[simp] theorem statusReads_append : statusReads base (occurrences ++ occurrences') =
    statusReads base occurrences + statusReads base occurrences' :=
  List.countP_append

theorem statusReads_access {access : Access} (haddress : access.address ≠ base + statusOffset) :
    statusReads base (.access access :: occurrences) = statusReads base occurrences := by
  refine List.countP_cons_of_neg ?_
  cases access with
  | read address word => exact fun h => haddress (of_decide_eq_true h)
  | write address word => exact Bool.false_ne_true

namespace Wait

variable {wait : Wait}

theorem statusReads_occurrences (wait : Wait) :
    statusReads base (wait.occurrences base) = wait.words.length := by
  obtain ⟨awaited, words⟩ := wait
  induction words with
  | nil => rfl
  | cons word rest ih =>
    have hlook : statusReads base (.access (.read (base + statusOffset) word) ::
        if awaited.ready (.ofWord word) then [] else [.relaxed]) = 1 := by
      split <;> simp [statusReads]
    rw [occurrences_cons, ← List.cons_append, statusReads_append, hlook, ih, List.length_cons,
      Nat.add_comm]

theorem relaxed_occurrences (base : UInt64) (wait : Wait) :
    (wait.occurrences base).count .relaxed + wait.words.countP wait.shows =
      wait.words.length := by
  obtain ⟨awaited, words⟩ := wait
  induction words with
  | nil => rfl
  | cons word rest ih =>
    -- A look shows what the wait is for, or the hook is called after it.
    have hlook : (Occurrence.access (.read (base + statusOffset) word) ::
          if awaited.ready (.ofWord word) then [] else [.relaxed]).count .relaxed +
        (if awaited.ready (.ofWord word) then 1 else 0) = 1 := by
      split <;> rfl
    have hshown : (word :: rest).countP (shows ⟨awaited, word :: rest⟩) =
        rest.countP (shows ⟨awaited, rest⟩) + if awaited.ready (.ofWord word) then 1 else 0 :=
      List.countP_cons
    rw [occurrences_cons, ← List.cons_append, List.count_append, hshown, List.length_cons]
    dsimp only at ih
    omega

theorem Met.countP (h : wait.Met budget) :
    wait.words.countP wait.shows = 1 ∧ wait.succeeded = true := by
  obtain ⟨earlier, last, hwords, -, hearlier, hlast⟩ := h
  have hnone : earlier.countP wait.shows = 0 :=
    List.countP_eq_zero.mpr fun word hmem => Bool.eq_false_iff.mp (hearlier word hmem)
  rw [succeeded, hwords, List.countP_append, hnone, List.any_append]
  simp [hlast]

theorem RanOut.countP (h : wait.RanOut budget) :
    wait.words.countP wait.shows = 0 ∧ wait.succeeded = false := by
  obtain ⟨-, hnone⟩ := h
  refine ⟨List.countP_eq_zero.mpr fun word hmem => Bool.eq_false_iff.mp (hnone word hmem), ?_⟩
  exact List.any_eq_false.mpr fun word hmem => Bool.eq_false_iff.mp (hnone word hmem)

theorem Met.length (h : wait.Met budget) :
    1 ≤ wait.words.length ∧ wait.words.length ≤ budget := by
  obtain ⟨earlier, last, hwords, hless, -, -⟩ := h
  rw [hwords, List.length_append]
  exact ⟨Nat.le_add_left 1 _, hless⟩

/-- A wait that has ended looked at most `budget` times, and also once if it could. -/
theorem looks_bounds (h : wait.Met budget ∨ wait.RanOut budget) :
    wait.words.length ≤ budget ∧ (1 ≤ budget → 1 ≤ wait.words.length) := by
  rcases h with hmet | ⟨hlength, -⟩
  · exact ⟨hmet.length.2, fun _ => hmet.length.1⟩
  · exact ⟨Nat.le_of_eq hlength, fun hbudget => hlength ▸ hbudget⟩

theorem Met.not_ranOut (h : wait.Met budget) : ¬ wait.RanOut budget :=
  fun hran => Bool.false_ne_true (hran.countP.2.symm.trans h.countP.2)

/-- All looks of a wait that has ended but the last one of a wait that succeeded are followed by a
call of the hook. -/
theorem relaxed_add_succeeded (base : UInt64) (h : wait.Met budget ∨ wait.RanOut budget) :
    (wait.occurrences base).count .relaxed + (if wait.succeeded then 1 else 0) =
      statusReads base (wait.occurrences base) := by
  have hlooks := relaxed_occurrences base wait
  rw [statusReads_occurrences, ← hlooks]
  rcases h with hmet | hran
  · rw [hmet.countP.1, hmet.countP.2, if_pos rfl]
  · rw [hran.countP.1, hran.countP.2, if_neg Bool.false_ne_true]

end Wait

theorem Waited.statusReads_le (h : Waited base waits occurrences)
    (hlooks : ∀ wait ∈ waits, wait.words.length ≤ budget) :
    statusReads base occurrences ≤ budget * waits.length := by
  induction h with
  | nil => exact Nat.zero_le _
  | access haddress _ ih =>
    rw [statusReads_access haddress]
    exact ih hlooks
  | wait wait _ ih =>
    obtain ⟨hfirst, hlooks⟩ := List.forall_mem_cons.mp hlooks
    rw [statusReads_append, Wait.statusReads_occurrences, List.length_cons, Nat.mul_succ,
      Nat.add_comm]
    exact Nat.add_le_add (ih hlooks) hfirst

theorem Waited.relaxed_add_succeeded (h : Waited base waits occurrences)
    (hended : ∀ wait ∈ waits, wait.Met budget ∨ wait.RanOut budget) :
    occurrences.count .relaxed + waits.countP Wait.succeeded = statusReads base occurrences := by
  induction h with
  | nil => rfl
  | access haddress _ ih =>
    rw [statusReads_access haddress, List.count_cons_of_ne (by exact nofun)]
    exact ih hended
  | wait wait _ ih =>
    obtain ⟨hfirst, hended⟩ := List.forall_mem_cons.mp hended
    have hwait := Wait.relaxed_add_succeeded base hfirst
    have hrest := ih hended
    rw [List.count_append, List.countP_cons, statusReads_append]
    omega

namespace InTurn

theorem ended (h : InTurn budget waits inTime) :
    ∀ wait ∈ waits, wait.Met budget ∨ wait.RanOut budget := by
  induction h with
  | nil => exact nofun
  | met hmet _ ih => exact List.forall_mem_cons.mpr ⟨.inl hmet, ih⟩
  | ranOut hran => exact List.forall_mem_cons.mpr ⟨.inr hran, nofun⟩

theorem ranOut_iff (h : InTurn budget waits inTime) :
    inTime = false ↔ ∃ wait ∈ waits, wait.RanOut budget := by
  induction h with
  | nil => exact ⟨nofun, nofun⟩
  | met hmet _ ih =>
    rw [ih]
    simp [hmet.not_ranOut]
  | ranOut hran => exact ⟨fun _ => ⟨_, List.mem_cons_self, hran⟩, fun _ => rfl⟩

/-- After a wait that ran out there is none. -/
theorem last (h : InTurn budget waits inTime) {earlier later : List Wait} {wait : Wait}
    (hsplit : waits = earlier ++ wait :: later) (hran : wait.RanOut budget) : later = [] := by
  induction h generalizing earlier with
  | nil => exact absurd hsplit.symm (by simp)
  | met hmet _ ih =>
    cases earlier with
    | nil =>
      obtain ⟨rfl, -⟩ := List.cons.inj hsplit
      exact absurd hran hmet.not_ranOut
    | cons first earlier => exact ih (List.cons.inj hsplit).2
  | ranOut _ =>
    cases earlier with
    | nil => exact (List.cons.inj hsplit).2.symm
    | cons first earlier => exact absurd (List.cons.inj hsplit).2.symm (by simp)

end InTurn

/-! ## Whole transactions -/

/-- Without a budget nothing is asked for. -/
theorem run_of_budget_zero {σ : Type} (hardware : Hardware σ) (t : Transaction) (s : σ)
    (hbudget : t.budget = 0) : t.run hardware s = (.error .busFree, t.payload, s) := by
  rw [Transaction.run, hbudget]
  rfl

/-- What a transaction with `length` data bytes asks for, wait by wait, and what it answers. -/
structure Polls (base : UInt64) (budget length : Nat) (waits : List Wait)
    (occurrences : List Occurrence) (result : Except Error Unit) : Prop where
  waited : Waited base waits occurrences
  one_le : 1 ≤ waits.length
  length_le : waits.length ≤ length + 2
  awaited : waits.map Wait.awaited = .free :: List.replicate (waits.length - 1) .done
  looks : ∀ wait ∈ waits, wait.words.length ≤ budget ∧ (1 ≤ budget → 1 ≤ wait.words.length)
  ended : ∀ wait ∈ waits, wait.Met budget ∨ wait.RanOut budget
  timeout_iff : result = .error .timeout ↔ ∃ wait ∈ waits, wait.RanOut budget
  last : ∀ earlier wait later, waits = earlier ++ wait :: later → wait.RanOut budget → later = []
  /-- Otherwise the transaction succeeds, and nothing was left to wait for. -/
  succeeded : result ≠ .error .timeout → result = .ok () ∧ waits.length = length + 2
  reads_le : statusReads base occurrences ≤ budget * (length + 2)
  idle : budget = 0 → occurrences = []
  relaxed : occurrences.count .relaxed + waits.countP Wait.succeeded = statusReads base occurrences

namespace Controller

/-- **A transaction polls within its budget.** On any hardware, with any relax hook, a transaction
consists of at least one wait and at most two more than it has data bytes: one for a free bus, one
for the opening byte and one for each data byte. No wait looks at the status more often than the
budget allows. The transaction times out exactly if some wait has used up its budget without a look
that showed what it was for, and that wait is the last one. The hook is called right after each look
that did not show it and at no other time. Without a budget nothing is asked for at all. -/
theorem execute_polls {σ : Type} (hardware : Hardware σ) (c : Controller σ) (t : Transaction) :
    let executed := c.observed.execute hardware.observed t
    c.execute hardware t = (executed.1, executed.2.1, executed.2.2.mapBus Observed.state) ∧
    ∃ waits, Polls c.config.baseAddress t.budget t.payload.length waits
      executed.2.2.bus.occurrences executed.1 := by
  refine ⟨execute_mapBus (c := c.observed) (Observed.agrees hardware c.config.baseAddress) t, ?_⟩
  obtain ⟨words, rest, added, hwaited, hadded, hturn, hdone, hle, hall⟩ :=
    run_awaited hardware c.config.baseAddress t c.observed.bus
  cases hrun : t.run (c.observed.window hardware.observed) c.observed.bus with
  | mk outcome left =>
  obtain ⟨left, after⟩ := left
  obtain ⟨journal, hexecute⟩ := execute_of_run (c := c.observed) hardware.observed hrun
  rw [show t.run (hardware.observed.window c.config.baseAddress) c.observed.bus = _ from hrun]
    at hadded hturn hall
  obtain rfl : after.occurrences = added := hadded
  dsimp only at hturn hall
  rw [hexecute]
  have htimeout : outcome.answer = .error .timeout ↔ outcome.isOk = false := by
    cases outcome with
    | ok _ => exact ⟨nofun, nofun⟩
    | error _ => exact ⟨fun _ => rfl, fun _ => rfl⟩
  have hlooks wait hmem := Wait.looks_bounds (hturn.ended wait hmem)
  have hlength : (⟨.free, words⟩ :: rest).length ≤ t.payload.length + 2 := by
    rw [List.length_cons]
    omega
  refine ⟨⟨.free, words⟩ :: rest, hwaited, Nat.le_add_left 1 _, hlength, ?_, hlooks, hturn.ended,
    htimeout.trans hturn.ranOut_iff, fun _ _ _ => hturn.last, fun hresult => ?_, ?_,
    fun hbudget => ?_, hwaited.relaxed_add_succeeded hturn.ended⟩
  · exact congrArg (Awaited.free :: ·) (List.map_eq_replicate_iff.mpr hdone)
  · cases outcome with
    | ok _ =>
      have heq := hall rfl
      exact ⟨rfl, by rw [List.length_cons]; omega⟩
    | error _ => exact absurd rfl hresult
  · exact Nat.le_trans (hwaited.statusReads_le fun wait hmem => (hlooks wait hmem).1)
      (Nat.mul_le_mul_left _ hlength)
  · have hran := run_of_budget_zero (hardware.observed.window c.config.baseAddress) t
      c.observed.bus hbudget
    obtain rfl : c.observed.bus = after := congrArg (·.2.2) (hran.symm.trans hrun)
    rfl

end Controller

end Firmware.I2c
