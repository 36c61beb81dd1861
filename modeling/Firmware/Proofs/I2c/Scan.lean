/-
  Firmware: a scan of a simulated bus. The probes share the held reads and the withheld
  acknowledgments of the simulator: as long as the bus is held for a whole budget an address is
  missed, then every attached one costs a withheld acknowledgment, and the ones behind answer.
  An empty write leaves the peripheral that it reaches as it was.
-/
import Firmware.Proofs.I2c.Calm
import Mathlib.Data.List.Sort

namespace Firmware.I2c

/-! ## All addresses -/

/-- Of a list that counts up from `first`, dropping the first ones keeps what counts far enough. -/
theorem drop_eq_filter {α : Type} {f : α → Nat} {l : List α} {first : Nat} (n : Nat)
    (h : l.map f = List.range' first l.length) :
    l.drop n = l.filter fun a => first + n ≤ f a := by
  induction l generalizing first n with
  | nil => rw [List.drop_nil, List.filter_nil]
  | cons a rest ih =>
    cases n with
    | zero =>
      have hall : ∀ b ∈ a :: rest, decide (first + 0 ≤ f b) = true := by
        intro b hb
        have hmem := List.mem_map_of_mem (f := f) hb
        rw [h, List.mem_range'_1] at hmem
        exact decide_eq_true hmem.1
      rw [List.drop_zero, List.filter_eq_self.mpr hall]
    | succ n =>
      rw [List.map_cons, List.length_cons, List.range'_succ, List.cons.injEq] at h
      obtain ⟨rfl, hrest⟩ := h
      rw [List.drop_succ_cons, ih n hrest, List.filter_cons_of_neg (by simp)]
      simp only [Nat.add_assoc, Nat.add_comm 1]

namespace Address

theorem length_all : all.length = 128 := by
  simp [all]

theorem map_all : all.map (fun a => a.value.toNat) = List.range' 0 all.length := by
  rw [length_all, all, List.map_map]
  apply List.ext_getElem
  · simp
  · intro i h₁ h₂
    have hi : i < 128 := by simpa using h₂
    simp [ofFin]
    omega

theorem mem_all (address : Address) : address ∈ all := by
  obtain ⟨n, rfl⟩ := address.ofFin_surjective
  exact List.mem_map_of_mem (List.mem_finRange n)

theorem pairwise_all : all.Pairwise (·.value < ·.value) := by
  have h : (all.map (fun a => a.value.toNat)).Pairwise (· < ·) := by
    rw [map_all]
    exact List.pairwise_lt_range'
  exact (List.pairwise_map.mp h).imp UInt8.lt_iff_toNat_lt.mpr

end Address

/-! ## Probes -/

namespace Simulator

variable {base : UInt64} {s : Simulator}

/-- Whether a peripheral is attached at an address. -/
def attached (s : Simulator) (address : Address) : Bool := (s.peripheral? address.value).isSome

/-- The addresses of a list that answer when they are probed one after the other. -/
def answering (s : Simulator) (budget : Nat) (addresses : List Address) : List Address :=
  if s.stalled then []
  else ((addresses.drop (s.heldReads / budget)).filter s.attached).drop s.nacks

/-- The transaction that probes an address. -/
def probed (budget : Nat) (address : Address) : Transaction :=
  { address, payload := .write [], budget }

theorem answering_nil (s : Simulator) (budget : Nat) : s.answering budget [] = [] := by
  unfold answering
  split
  · rfl
  · rw [List.drop_nil, List.filter_nil, List.drop_nil]

theorem attached_congr {s' : Simulator} (h : s'.peripherals = s.peripherals) :
    s'.attached = s.attached := by
  funext address
  rw [attached, attached, peripheral?_congr h]

/-- An address is missed while the bus is held. -/
theorem answering_held {budget : Nat} (hbudget : 0 < budget) (hheld : budget ≤ s.heldReads)
    (address : Address) (rest : List Address) :
    s.answering budget (address :: rest) = (s.looked budget).answering budget rest := by
  have hdiv : s.heldReads / budget = (s.looked budget).heldReads / budget + 1 :=
    Nat.div_eq_sub_div hbudget hheld
  rw [answering, hdiv, List.drop_succ_cons]
  rfl

/-- An address that nobody acknowledges does not answer, and uses up an acknowledgment that is
withheld if somebody is there. -/
theorem answering_refused {budget : Nat} (hfree : s.heldReads < budget) {address : Address}
    (hrefused : s.peripheral? address.value = none ∨ 0 < s.nacks ∨ s.stalled = true)
    (rest : List Address) :
    s.answering budget (address :: rest) =
      (s.refused (probed budget address)).answering budget rest := by
  have hattached : (s.refused (probed budget address)).attached = s.attached :=
    attached_congr rfl
  have hzero : (s.refused (probed budget address)).heldReads / budget = 0 := Nat.zero_div budget
  cases hstalled : s.stalled with
  | true => rw [answering, answering, refused, hstalled, if_pos rfl, if_pos rfl]
  | false =>
    rw [answering, answering, hattached, hzero, Nat.div_eq_of_lt hfree, List.drop_zero,
      List.drop_zero, if_neg (by simp [hstalled]), if_neg (by simp [refused, hstalled])]
    cases hp : s.peripheral? address.value with
    | none =>
      have hnacks : (s.refused (probed budget address)).nacks = s.nacks := by
        simp [refused, target?, probed, hp]
      rw [hnacks, List.filter_cons_of_neg (by simp [attached, hp])]
    | some p =>
      have hsome : 0 < s.nacks := by simpa [hp, hstalled] using hrefused
      have hnacks : s.nacks = (s.refused (probed budget address)).nacks + 1 := by
        simp [refused, target?, probed, hp]
        omega
      rw [hnacks, List.filter_cons_of_pos (by simp [attached, hp]), List.drop_succ_cons]

/-- An empty write reaches a peripheral without a trace. -/
theorem delivered_probed {budget : Nat} {address : Address} {p : Peripheral}
    (hp : s.peripheral? address.value = some p) :
    (s.delivered (probed budget address) p).peripherals = s.peripherals := by
  show (s.place address.value (some p)).peripherals = s.peripherals
  rw [place_self hp]

/-- An address that is acknowledged answers. -/
theorem answering_delivered {budget : Nat} (hfree : s.heldReads < budget) {address : Address}
    {p : Peripheral} (hp : s.peripheral? address.value = some p) (hnacks : s.nacks = 0)
    (hstalled : s.stalled = false) (rest : List Address) :
    s.answering budget (address :: rest) =
      address :: (s.delivered (probed budget address) p).answering budget rest := by
  have hkept : (s.delivered (probed budget address) p).peripherals = s.peripherals :=
    delivered_probed hp
  have hzero : (s.delivered (probed budget address) p).heldReads / budget = 0 :=
    Nat.zero_div budget
  have hnacks' : (s.delivered (probed budget address) p).nacks = 0 := hnacks
  have hstalled' : (s.delivered (probed budget address) p).stalled = false := hstalled
  rw [answering, answering, attached_congr hkept, hzero, hnacks', hstalled', hnacks, hstalled,
    Nat.div_eq_of_lt hfree]
  simp [attached, hp]

/-- What probing one address comes to, for the answers and for the addresses behind it. -/
theorem run_probed (h : s.Sound base) {budget : Nat} (hbudget : 0 < budget) (address : Address) :
    ∃ outcome after, (probed budget address).run (bare base) s = (outcome, .write [], after) ∧
      after.Sound base ∧ (s.Calm base → after.Calm base) ∧ after.peripherals = s.peripherals ∧
      after.heldReads / budget = s.heldReads / budget - 1 ∧
      outcome.conditions = 1 - s.heldReads / budget ∧
      ∀ rest, s.answering budget (address :: rest) =
        match outcome with
        | .ok _ => address :: after.answering budget rest
        | .error _ => after.answering budget rest := by
  rcases s.ways (probed budget address) with
    hheld | ⟨hfree, hrefused⟩ | ⟨p, hfree, hp, hnacks, hstalled⟩
  · have hdiv := Nat.div_eq_sub_div hbudget hheld
    refine ⟨_, _, run_held h.base_eq (probed budget address) hheld, h.keep rfl rfl,
      fun calm => calm.looked budget, rfl, ?_, ?_,
      answering_held hbudget hheld address⟩
    · rw [hdiv]
      rfl
    · rw [hdiv, Nat.sub_add_eq, Nat.sub_right_comm]
      exact (Nat.zero_sub _).symm
  · have hzero : s.heldReads / budget = 0 := Nat.div_eq_of_lt hfree
    refine ⟨_, _, run_refused h (probed budget address) hfree hrefused, h.keep rfl rfl,
      fun calm => calm.refused _, rfl, ?_, ?_, answering_refused hfree hrefused⟩
    · rw [hzero]
      exact Nat.zero_div budget
    · rw [hzero]
      rfl
  · have hzero : s.heldReads / budget = 0 := Nat.div_eq_of_lt hfree
    refine ⟨_, _, run_delivered h (probed budget address) hfree hp hnacks hstalled,
      h.keep rfl rfl, fun _ => h.calm_delivered hnacks hstalled _ p, delivered_probed hp, ?_, ?_,
      answering_delivered hfree hp hnacks hstalled⟩
    · rw [hzero]
      exact Nat.zero_div budget
    · rw [hzero]
      rfl

end Simulator

namespace Controller

open Simulator

variable {c : Controller Simulator}

/-- Probing addresses finds those that answer and leaves the peripherals alone. -/
theorem probe_answering (h : c.bus.Sound c.config.baseAddress)
    (hbudget : 0 < c.config.scanTimeoutBudget.toNat) (addresses : List Address) :
    ∃ c', c.probe alone addresses =
        (c.bus.answering c.config.scanTimeoutBudget.toNat addresses, c') ∧
      (c.bus.Calm c.config.baseAddress → c.CalmAfter c' c.bus.peripherals) ∧
      c'.bus.peripherals = c.bus.peripherals ∧
      c'.statistics.transactions = c.statistics.transactions + addresses.length ∧
      c'.statistics.starts = c.statistics.starts +
        (addresses.length - c.bus.heldReads / c.config.scanTimeoutBudget.toNat) ∧
      c'.statistics.timeouts +
          (c.bus.answering c.config.scanTimeoutBudget.toNat addresses).length =
        c.statistics.timeouts + addresses.length := by
  induction addresses generalizing c with
  | nil =>
    rw [answering_nil]
    refine ⟨c, rfl, fun calm => ⟨rfl, calm, rfl⟩, rfl, rfl, ?_, rfl⟩
    rw [List.length_nil, Nat.zero_sub, Nat.add_zero]
  | cons address rest ih =>
    obtain ⟨outcome, after, hrun, hsound, hcalm, hkept, hheld, hconditions, hanswering⟩ :=
      run_probed h hbudget address
    obtain ⟨journal, hexecute⟩ := execute_of_run alone hrun
    obtain ⟨c', hrest, hrestCalm, hperipherals, htransactions, hstarts, htimeouts⟩ :=
      ih (c := ⟨c.config, after, c.statistics.count outcome, journal⟩) hsound hbudget
    have hcalm (calm : c.bus.Calm c.config.baseAddress) : c.CalmAfter c' c.bus.peripherals :=
      ⟨(hrestCalm (hcalm calm)).config_eq, (hrestCalm (hcalm calm)).calm,
        hperipherals.trans hkept⟩
    rw [Statistics.transactions_count] at htransactions
    rw [Statistics.starts_count, hheld, hconditions] at hstarts
    rw [Statistics.timeouts_count] at htimeouts
    rw [probed] at hexecute
    rw [hanswering, List.length_cons]
    -- A probe that finds the bus held counts no START, and one that fails counts a timeout.
    cases outcome with
    | ok _ =>
      dsimp only [Outcome.failures] at htimeouts ⊢
      refine ⟨c', ?_, hcalm, hperipherals.trans hkept, ?_, ?_, ?_⟩
      · rw [probe, hexecute]
        simp only [hrest]
        rfl
      · omega
      · omega
      · rw [List.length_cons]
        omega
    | error phase =>
      dsimp only [Outcome.failures] at htimeouts ⊢
      refine ⟨c', ?_, hcalm, hperipherals.trans hkept, ?_, ?_, ?_⟩
      · rw [probe, hexecute]
        simp only [hrest]
        rfl
      · omega
      · omega
      · omega

/-! ## With any hook that leaves the simulator alone -/

variable {τ : Type}

/-- **A scan is exact and harmless.** On a simulator in any reachable state, with any relax hook
that leaves it alone, a scan misses the addresses below the number of budgets for which the bus
is held, and the first attached ones behind them as far as acknowledgments are withheld; it finds
every other attached one in ascending order, or nobody on a stalled simulator. The peripherals
stay as they are. -/
theorem scan_exact {relax : Simulator × τ → Simulator × τ} (harmless : ∀ s, (relax s).1 = s.1)
    (c : Controller (Simulator × τ)) (reachable : Reachable c.config.baseAddress c.bus.1)
    (hbudget : 0 < c.config.scanTimeoutBudget.toNat) :
    let missed := c.bus.1.heldReads / c.config.scanTimeoutBudget.toNat
    let found := (c.scan (hosted relax)).1
    let c' := (c.scan (hosted relax)).2
    (∃ candidates : List Address,
      candidates.Pairwise (·.value < ·.value) ∧
      (∀ a, a ∈ candidates ↔
        missed ≤ a.value.toNat ∧ (c.bus.1.peripheral? a.value).isSome) ∧
      found = if c.bus.1.stalled then [] else candidates.drop c.bus.1.nacks) ∧
    c'.bus.1.peripherals = c.bus.1.peripherals ∧
    c'.statistics.transactions = c.statistics.transactions + 128 ∧
    c'.statistics.starts = c.statistics.starts + (128 - min 128 missed) ∧
    c'.statistics.timeouts + found.length = c.statistics.timeouts + 128 := by
  have sound : c.seen.bus.Sound c.seen.config.baseAddress := reachable.sound
  obtain ⟨hfound, hseen⟩ := scan_seen harmless c
  obtain ⟨d, hprobe, -, hperipherals, htransactions, hstarts, htimeouts⟩ :=
    probe_answering sound hbudget Address.all
  have hscan : c.seen.scan alone =
      (c.seen.bus.answering c.config.scanTimeoutBudget.toNat Address.all, d.note (.found
        (c.seen.bus.answering c.config.scanTimeoutBudget.toNat Address.all).length)) := by
    rw [scan, hprobe]
    rfl
  rw [hscan] at hfound hseen
  rw [Address.length_all] at htransactions hstarts htimeouts
  generalize c.scan (hosted relax) = scanned at hfound hseen ⊢
  obtain ⟨found, c'⟩ := scanned
  have hstatistics : c'.statistics = d.statistics := congrArg Controller.statistics hseen
  dsimp only at hfound hseen ⊢
  rw [hstatistics]
  refine ⟨⟨(Address.all.drop (c.bus.1.heldReads / c.config.scanTimeoutBudget.toNat)).filter
    c.bus.1.attached, ?_, fun a => ?_, hfound⟩, ?_, htransactions, ?_, ?_⟩
  · exact Address.pairwise_all.sublist (List.filter_sublist.trans (List.drop_sublist _ _))
  · rw [drop_eq_filter _ Address.map_all, List.mem_filter, List.mem_filter]
    simp [Address.mem_all, attached]
  · exact (congrArg (fun d => d.bus.peripherals) hseen).trans hperipherals
  · rw [hstarts, ← Nat.sub_eq_sub_min]
    rfl
  · rw [hfound]
    exact htimeouts

open Simulator in
/-- A bus that is held for two looks, with one look per wait, where `0x01`, `0x20` and `0x50` are
attached and one acknowledgment is withheld: only the last of them is found. -/
theorem scan_exact_one_of_three :
    let sim := (Handling.nackNext 1).applied ((Handling.holdBus 2).applied
      ((Handling.attach 0x50).applied ((Handling.attach 0x20).applied
        ((Handling.attach 0x01).applied (Simulator.create defaultBase)))))
    let c := Controller.create { scanTimeoutBudget := 1 } (sim, ())
    Reachable c.config.baseAddress c.bus.1 ∧ 0 < c.config.scanTimeoutBudget.toNat ∧
    (c.scan (hosted id)).1 = [⟨0x50, by decide⟩] ∧
    (c.scan (hosted id)).2.statistics.starts = 126 ∧
    (c.scan (hosted id)).2.bus.1.peripherals = c.bus.1.peripherals := by
  intro sim c
  have harmless (s : Simulator × Unit) : (id s).1 = s.1 := rfl
  have reachable : Reachable c.config.baseAddress c.bus.1 :=
    .handle (.nackNext 1) (.handle (.holdBus 2) (.handle (.attach 0x50)
      (.handle (.attach 0x20) (.handle (.attach 0x01) .create))))
  have hbudget : 0 < c.config.scanTimeoutBudget.toNat := by decide
  obtain ⟨⟨candidates, hascending, hmem, hfound⟩, hperipherals, -, hstarts, -⟩ :=
    scan_exact harmless c reachable hbudget
  have hmissed : c.bus.1.heldReads / c.config.scanTimeoutBudget.toNat = 2 := by decide
  rw [hmissed] at hmem hstarts
  have hcandidates : candidates = [⟨0x20, by decide⟩, ⟨0x50, by decide⟩] := by
    have irreflexive : Std.Irrefl fun a b : Address => a.value < b.value :=
      ⟨fun a => UInt8.lt_irrefl a.value⟩
    have hattached : ∀ n : Fin 128, 2 ≤ (Address.ofFin n).value.toNat ∧
        (c.bus.1.peripheral? (Address.ofFin n).value).isSome ↔
      Address.ofFin n ∈ [⟨0x20, by decide⟩, ⟨0x50, by decide⟩] := by decide +kernel
    refine hascending.eq_of_mem_iff (by decide) fun {a} => ?_
    obtain ⟨n, rfl⟩ := a.ofFin_surjective
    exact (hmem _).trans (hattached n)
  rw [hcandidates] at hfound
  exact ⟨reachable, hbudget, hfound, hstarts, hperipherals⟩

end Controller

end Firmware.I2c
