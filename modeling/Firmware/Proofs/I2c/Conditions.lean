/-
  Firmware: START and STOP over whole runs of a controller. The accesses of a run, on any
  hardware, are those of its transactions, each bracketed by START and STOP or without either,
  and in between settings that keep to the acknowledge bit and the clock. So STARTs and STOPs
  are counted alike, and on a simulator they are the ones that happen.
-/
import Firmware.Proofs.I2c.Brackets
import Firmware.Proofs.I2c.Controller
import Firmware.Proofs.I2c.Hosted
import Firmware.Proofs.I2c.Operations
import Firmware.Proofs.I2c.SimulatedTransfer

namespace Firmware.I2c

/-! ## The accesses of a run -/

/-- Accesses of a controller outside its transactions. -/
inductive Setting (base : UInt64) : List Access → Prop where
  | clock (hz : UInt32) : Setting base [.write (base + clockOffset) hz]
  | ackOn (value : UInt32) : Setting base
    [.read (base + controlOffset) value, .write (base + controlOffset) (value ||| ackBit)]
  | ackOff (value : UInt32) : Setting base
    [.read (base + controlOffset) value, .write (base + controlOffset) (value &&& ~~~ackBit)]
  | look (offset : UInt64) (value : UInt32) : Setting base [.read (base + offset) value]

/-- The accesses of a run, whose transactions have certain outcomes. -/
inductive Course (base : UInt64) : List Outcome → List Access → Prop where
  | nil : Course base [] []
  | transaction {outcome : Outcome} {accesses : List Access} {outcomes : List Outcome}
    {rest : List Access} : Bracketed base outcome accesses → Course base outcomes rest →
    Course base (outcome :: outcomes) (accesses ++ rest)
  | setting {accesses : List Access} {outcomes : List Outcome} {rest : List Access} :
    Setting base accesses → Course base outcomes rest → Course base outcomes (accesses ++ rest)

theorem Course.append {base : UInt64} {outcomes outcomes' : List Outcome}
    {accesses accesses' : List Access} (h : Course base outcomes accesses)
    (h' : Course base outcomes' accesses') :
    Course base (outcomes ++ outcomes') (accesses ++ accesses') := by
  induction h with
  | nil => exact h'
  | transaction hbracketed _ ih =>
    rw [List.append_assoc]
    exact .transaction hbracketed ih
  | setting hsetting _ ih =>
    rw [List.append_assoc]
    exact .setting hsetting ih

/-- How many START conditions transactions with certain outcomes generate. -/
def conditions (outcomes : List Outcome) : Nat := (outcomes.map Outcome.conditions).sum

theorem conditions_append (outcomes outcomes' : List Outcome) :
    conditions (outcomes ++ outcomes') = conditions outcomes + conditions outcomes' := by
  rw [conditions, List.map_append, List.sum_append]
  rfl

namespace Controller

variable {σ : Type} {hardware : Hardware σ} {c c' c'' : Controller (Recorded σ)}

/-- What a controller with recorded hardware did: it added a course of accesses to the record
and counted the transactions in it. -/
def Did (c c' : Controller (Recorded σ)) : Prop :=
  ∃ outcomes added, c'.config = c.config ∧ c'.bus.accesses = c.bus.accesses ++ added ∧
    Course c.config.baseAddress outcomes added ∧
    c'.statistics.transactions = c.statistics.transactions + outcomes.length ∧
    c'.statistics.starts = c.statistics.starts + conditions outcomes ∧
    c'.statistics.stops = c.statistics.stops + conditions outcomes

theorem Did.nothing (hconfig : c'.config = c.config) (hbus : c'.bus = c.bus)
    (htransactions : c'.statistics.transactions = c.statistics.transactions)
    (hstarts : c'.statistics.starts = c.statistics.starts)
    (hstops : c'.statistics.stops = c.statistics.stops) : Did c c' := by
  refine ⟨[], [], hconfig, ?_, .nil, htransactions, hstarts, hstops⟩
  rw [hbus, List.append_nil]

theorem Did.setting {accesses : List Access} (hconfig : c'.config = c.config)
    (hbus : c'.bus.accesses = c.bus.accesses ++ accesses)
    (hstatistics : c'.statistics = c.statistics)
    (hsetting : Setting c.config.baseAddress accesses) : Did c c' := by
  refine ⟨[], accesses ++ [], hconfig, ?_, .setting hsetting .nil, ?_, ?_, ?_⟩
  · rw [hbus, List.append_nil]
  all_goals
    rw [hstatistics]
    rfl

theorem Did.trans (h : Did c c') (h' : Did c' c'') : Did c c'' := by
  obtain ⟨outcomes, added, hconfig, hbus, hcourse, htransactions, hstarts, hstops⟩ := h
  obtain ⟨outcomes', added', hconfig', hbus', hcourse', htransactions', hstarts', hstops'⟩ := h'
  rw [hconfig] at hcourse'
  refine ⟨outcomes ++ outcomes', added ++ added', hconfig'.trans hconfig, ?_,
    hcourse.append hcourse', ?_, ?_, ?_⟩
  · rw [hbus', hbus, List.append_assoc]
  · rw [htransactions', htransactions, List.length_append, Nat.add_assoc]
  · rw [hstarts', hstarts, conditions_append, Nat.add_assoc]
  · rw [hstops', hstops, conditions_append, Nat.add_assoc]

/-- A transaction answers and is counted by an outcome, and accesses registers accordingly. -/
theorem execute_bracketed (hardware : Hardware σ) (c : Controller (Recorded σ))
    (t : Transaction) : ∃ outcome added,
      (c.execute hardware.recorded t).1 = outcome.answer ∧
      (c.execute hardware.recorded t).2.2.config = c.config ∧
      (c.execute hardware.recorded t).2.2.statistics = c.statistics.count outcome ∧
      (c.execute hardware.recorded t).2.2.bus.accesses = c.bus.accesses ++ added ∧
      Bracketed c.config.baseAddress outcome added := by
  obtain ⟨added, hbracketed, hadded⟩ :=
    run_bracketed hardware c.config.baseAddress t c.bus
  obtain ⟨journal, hexecute⟩ :=
    execute_of_run (c := c) (t := t) hardware.recorded rfl
  rw [hexecute]
  exact ⟨_, added, rfl, rfl, rfl, hadded, hbracketed⟩

theorem Did.execute (hardware : Hardware σ) (t : Transaction) (c : Controller (Recorded σ)) :
    Did c (c.execute hardware.recorded t).2.2 := by
  obtain ⟨outcome, added, -, hconfig, hstatistics, hadded, hbracketed⟩ :=
    execute_bracketed hardware c t
  refine ⟨[outcome], added ++ [], hconfig, ?_, .transaction hbracketed .nil, ?_, ?_, ?_⟩
  · rw [hadded, List.append_nil]
  · rw [hstatistics, Statistics.transactions_count]
    rfl
  · rw [hstatistics, Statistics.starts_count]
    rfl
  · rw [hstatistics, Statistics.stops_count]
    rfl

theorem did_setSpeed (hardware : Hardware σ) (hz : UInt32) (c : Controller (Recorded σ)) :
    Did c (c.setSpeed hardware.recorded hz) :=
  .setting rfl (Recorded.accesses_write hardware.toRegisters _ hz c.bus) rfl (.clock hz)

theorem did_readRegisterAt (hardware : Hardware σ) (offset : UInt64)
    (c : Controller (Recorded σ)) : Did c (c.readRegisterAt hardware.recorded offset).2 :=
  .setting rfl (Recorded.accesses_read hardware.toRegisters _ c.bus) rfl (.look offset _)

theorem did_init (hardware : Hardware σ) (c : Controller (Recorded σ)) :
    Did c (c.init hardware.recorded) := by
  let clocked : Controller (Recorded σ) :=
    { c with bus := (c.window hardware.recorded).write clockOffset c.config.defaultSpeedHz c.bus }
  have hclocked : Did c clocked :=
    .setting rfl (Recorded.accesses_write hardware.toRegisters _ _ c.bus) rfl (.clock _)
  obtain ⟨value, hack⟩ := accesses_setBits hardware c.config.baseAddress ackBit clocked.bus
  exact hclocked.trans (.setting rfl hack rfl (.ackOn value))

theorem did_deinit (hardware : Hardware σ) (c : Controller (Recorded σ)) :
    Did c (c.deinit hardware.recorded) := by
  obtain ⟨value, hack⟩ := Recorded.accesses_modify hardware.toRegisters
    (c.config.baseAddress + controlOffset) (· &&& ~~~ackBit) c.bus
  exact .setting rfl hack rfl (.ackOff value)

theorem did_closed (hardware : Hardware σ) : Closed hardware.recorded Did where
  refl _ := .nothing rfl rfl rfl rfl rfl
  trans := Did.trans
  journal _ _ := .nothing rfl rfl rfl rfl rfl
  init := did_init hardware
  deinit := did_deinit hardware
  setSpeed := did_setSpeed hardware
  readRegisterAt := did_readRegisterAt hardware
  execute := Did.execute hardware
  retried t c _ := (Did.execute hardware t c).trans (.nothing rfl rfl rfl rfl rfl)

/-! ## Counting alike -/

/-- What leaves the counters of STARTs and STOPs equal if they were. -/
def Balanced (c c' : Controller σ) : Prop :=
  c.statistics.starts = c.statistics.stops → c'.statistics.starts = c'.statistics.stops

theorem balanced_execute (hardware : Hardware σ) (t : Transaction) (c : Controller σ) :
    Balanced c (c.execute hardware t).2.2 := by
  intro h
  rw [statistics_execute, Statistics.starts_count, Statistics.stops_count, h]

theorem balanced_closed (hardware : Hardware σ) : Closed hardware Balanced where
  refl _ h := h
  trans h h' := h' ∘ h
  journal _ _ h := h
  init _ h := h
  deinit _ h := h
  setSpeed _ _ h := h
  readRegisterAt _ _ h := h
  execute := balanced_execute hardware
  retried t c _ := balanced_execute hardware t c

/-! ## On a simulator -/

end Controller

/-- A transaction generates START and STOP on a simulator exactly as its outcome tells. -/
theorem Simulator.run_conditions {base : UInt64} {s : Simulator} (h : s.Sound base)
    (t : Transaction) : ∃ outcome payload after,
      t.run (bare base) s = (outcome, payload, after) ∧ after.Sound base ∧
      after.starts = s.starts + outcome.conditions ∧
      after.stops = s.stops + outcome.conditions := by
  rcases s.ways t with hheld | ⟨hfree, hrefused⟩ | ⟨p, hfree, hp, hnacks, hstalled⟩
  · exact ⟨_, _, _, run_held h.base_eq t hheld, h.keep rfl rfl, rfl, rfl⟩
  · exact ⟨_, _, _, run_refused h t hfree hrefused, h.keep rfl rfl, rfl, rfl⟩
  · exact ⟨_, _, _, run_delivered h t hfree hp hnacks hstalled, h.keep rfl rfl, rfl, rfl⟩

namespace Controller

open Simulator

variable {τ : Type} {relax : Simulator × τ → Simulator × τ}

/-- What a controller did to a simulator at its base: the conditions that it counted happened. -/
def Counted (c c' : Controller (Simulator × τ)) : Prop :=
  c.bus.1.Sound c.config.baseAddress →
    c'.config = c.config ∧ c'.bus.1.Sound c.config.baseAddress ∧
    ∃ n, c'.bus.1.starts = c.bus.1.starts + n ∧ c'.bus.1.stops = c.bus.1.stops + n ∧
      c'.statistics.starts = c.statistics.starts + n

theorem Counted.trans {c c' c'' : Controller (Simulator × τ)} (h : Counted c c')
    (h' : Counted c' c'') : Counted c c'' := by
  intro sound
  obtain ⟨hconfig, hsound, n, hstarts, hstops, hcounted⟩ := h sound
  obtain ⟨hconfig', hsound', n', hstarts', hstops', hcounted'⟩ := h' (hconfig ▸ hsound)
  refine ⟨hconfig'.trans hconfig, hconfig ▸ hsound', n + n', ?_, ?_, ?_⟩
  · rw [hstarts', hstarts, Nat.add_assoc]
  · rw [hstops', hstops, Nat.add_assoc]
  · rw [hcounted', hcounted, Nat.add_assoc]

theorem counted_execute (harmless : ∀ s, (relax s).1 = s.1) (t : Transaction)
    (c : Controller (Simulator × τ)) : Counted c (c.execute (hosted relax) t).2.2 := by
  intro sound
  obtain ⟨-, -, hseen⟩ := execute_seen harmless c t
  obtain ⟨outcome, payload, after, hrun, hsound, hstarts, hstops⟩ := run_conditions sound t
  obtain ⟨journal, hexecute⟩ := execute_of_run (c := c.seen) alone hrun
  rw [hexecute] at hseen
  generalize (c.execute (hosted relax) t).2.2 = c' at hseen ⊢
  have hconfig : c'.seen.config = c.config := by rw [hseen]; rfl
  have hbus : c'.bus.1 = after := congrArg Controller.bus hseen
  have hstatistics : c'.statistics = c.statistics.count outcome :=
    congrArg Controller.statistics hseen
  rw [hbus, hstatistics, Statistics.starts_count]
  exact ⟨hconfig, hsound, outcome.conditions, hstarts, hstops, rfl⟩

theorem counted_init (c : Controller (Simulator × τ)) : Counted c (c.init (hosted relax)) := by
  intro sound
  have hbus : (c.init (hosted relax)).bus.1 =
      (bare c.config.baseAddress).setBits controlOffset ackBit
        ((bare c.config.baseAddress).write clockOffset c.config.defaultSpeedHz c.bus.1) := rfl
  have hclocked : Simulator.Sound c.config.baseAddress
      { c.bus.1 with clock := c.config.defaultSpeedHz } := sound.keep rfl rfl
  rw [hbus, write_clock sound.base_eq, setBits_ack hclocked]
  exact ⟨rfl, ⟨sound.base_eq, .inr rfl⟩, 0, rfl, rfl, rfl⟩

theorem counted_deinit (c : Controller (Simulator × τ)) :
    Counted c (c.deinit (hosted relax)) := by
  intro sound
  have hbus : (c.deinit (hosted relax)).bus.1 = { c.bus.1 with control := 0 } :=
    clearBits_ack sound
  rw [hbus]
  exact ⟨rfl, ⟨sound.base_eq, .inl rfl⟩, 0, rfl, rfl, rfl⟩

theorem counted_setSpeed (hz : UInt32) (c : Controller (Simulator × τ)) :
    Counted c (c.setSpeed (hosted relax) hz) := by
  intro sound
  have hbus : (c.setSpeed (hosted relax) hz).bus.1 = { c.bus.1 with clock := hz } :=
    write_clock sound.base_eq hz
  rw [hbus]
  exact ⟨rfl, sound.keep rfl rfl, 0, rfl, rfl, rfl⟩

theorem counted_readRegisterAt (offset : UInt64) (c : Controller (Simulator × τ)) :
    Counted c (c.readRegisterAt (hosted relax) offset).2 := by
  intro sound
  obtain ⟨hstarts, hstops⟩ := read_conditions c.bus.1 (c.config.baseAddress + offset)
  exact ⟨rfl, sound.read (c.config.baseAddress + offset), 0, hstarts, hstops, rfl⟩

theorem counted_closed (harmless : ∀ s, (relax s).1 = s.1) :
    Closed (hosted relax) (Counted (τ := τ)) where
  refl _ sound := ⟨rfl, sound, 0, rfl, rfl, rfl⟩
  trans := Counted.trans
  journal _ _ sound := ⟨rfl, sound, 0, rfl, rfl, rfl⟩
  init := counted_init
  deinit := counted_deinit
  setSpeed := counted_setSpeed
  readRegisterAt := counted_readRegisterAt
  execute := counted_execute harmless
  retried t c _ :=
    (counted_execute harmless t c).trans fun sound => ⟨rfl, sound, 0, rfl, rfl, rfl⟩

/-! ## Over whole runs -/

/-- **START and STOP come in pairs.** On any hardware, with any relax hook, a transaction either
finds the bus held for its whole wait and does nothing but look at the status, or sets START and
then STOP in the control register and accesses that register in no other way. A run is made of
such transactions, and of settings that keep to the clock and the acknowledge bit, and it counts
the pairs, so the counters of STARTs and STOPs stay equal. On a simulator at the base of the
controller, in any reachable state, with a hook that leaves it alone, as many STARTs and STOPs
happen in a run as are counted. -/
theorem conditions_paired {σ : Type} (hardware : Hardware σ) (operations : List Operation) :
    (∀ (c : Controller (Recorded σ)) (t : Transaction), ∃ outcome added,
      (c.execute hardware.recorded t).1 = outcome.answer ∧
      (c.execute hardware.recorded t).2.2.config = c.config ∧
      (c.execute hardware.recorded t).2.2.statistics = c.statistics.count outcome ∧
      (c.execute hardware.recorded t).2.2.bus.accesses = c.bus.accesses ++ added ∧
      Bracketed c.config.baseAddress outcome added ∧
      let control := c.config.baseAddress + controlOffset
      (outcome = .error .busFree → added.filter (isControl c.config.baseAddress) = []) ∧
      (outcome ≠ .error .busFree → ∃ first last,
        added.filter (isControl c.config.baseAddress) =
          [.read control first, .write control (first ||| startBit),
            .read control last, .write control (last ||| stopBit)])) ∧
    (∀ c : Controller (Recorded σ), .resetStatistics ∉ operations →
      ∃ outcomes added, let c' := (c.run hardware.recorded operations).2
        c'.config = c.config ∧ c'.bus.accesses = c.bus.accesses ++ added ∧
        Course c.config.baseAddress outcomes added ∧
        c'.statistics.transactions = c.statistics.transactions + outcomes.length ∧
        c'.statistics.starts = c.statistics.starts + conditions outcomes ∧
        c'.statistics.stops = c.statistics.stops + conditions outcomes) ∧
    (∀ config bus, let c' := ((create config bus).run hardware operations).2
      c'.statistics.starts = c'.statistics.stops) ∧
    (∀ (τ : Type) (relax : Simulator × τ → Simulator × τ), (∀ s, (relax s).1 = s.1) →
      ∀ c : Controller (Simulator × τ), Reachable c.config.baseAddress c.bus.1 →
      .resetStatistics ∉ operations →
      ∃ n, let c' := (c.run (hosted relax) operations).2
        c'.bus.1.starts = c.bus.1.starts + n ∧ c'.bus.1.stops = c.bus.1.stops + n ∧
        c'.statistics.starts = c.statistics.starts + n) := by
  refine ⟨fun c t => ?_, fun c hreset => ?_, fun config bus => ?_,
    fun τ relax harmless c reachable hreset => ?_⟩
  · obtain ⟨outcome, added, hresult, hconfig, hstatistics, hadded, hbracketed⟩ :=
      execute_bracketed hardware c t
    exact ⟨outcome, added, hresult, hconfig, hstatistics, hadded, hbracketed,
      fun houtcome => (houtcome ▸ hbracketed).control_held, hbracketed.control_moved⟩
  · exact (did_closed hardware).run operations (fun h => absurd h hreset) c
  · exact (balanced_closed hardware).run operations (fun _ _ _ => rfl) (create config bus) rfl
  · obtain ⟨-, -, hcounted⟩ := (counted_closed harmless).run operations
      (fun h => absurd h hreset) c reachable.sound
    exact hcounted

/-- A run of four operations over sparse registers, and on a simulator that withholds an
acknowledgment. -/
theorem conditions_paired_four :
    let operations : List Operation := [.init, .send 0x50 [0x10, 7], .scan, .deinit]
    let sim := (Handling.nackNext 1).applied
      ((Handling.attach 0x50).applied (Simulator.create defaultBase))
    let c := Controller.create {} (sim, ())
    .resetStatistics ∉ operations ∧ Reachable c.config.baseAddress c.bus.1 ∧
    (∃ outcomes added, Course defaultBase outcomes added ∧
      ((create {} RegisterFile.empty).run (Hardware.spinning Cells.registers).recorded
        operations).2.bus.accesses = added) ∧
    (c.run (hosted id) operations).2.bus.1.starts =
      (c.run (hosted id) operations).2.statistics.starts := by
  intro operations sim c
  have hreset : .resetStatistics ∉ operations := by simp [operations]
  have harmless (s : Simulator × Unit) : (id s).1 = s.1 := rfl
  have reachable : Reachable c.config.baseAddress c.bus.1 :=
    .handle (.nackNext 1) (.handle (.attach 0x50) .create)
  obtain ⟨-, hcourse, -, hcounted⟩ :=
    conditions_paired (Hardware.spinning Cells.registers) operations
  obtain ⟨outcomes, added, -, hadded, hcourse, -⟩ := hcourse (create {} RegisterFile.empty) hreset
  obtain ⟨n, hstarts, -, hcount⟩ := hcounted Unit id harmless c reachable hreset
  have hzero : c.bus.1.starts = c.statistics.starts := rfl
  refine ⟨hreset, reachable, ⟨outcomes, added, hcourse, ?_⟩, ?_⟩
  · rw [hadded]
    rfl
  · rw [hstarts, hcount, hzero]

end Controller

end Firmware.I2c
