/-
  Firmware: retries on a simulated bus. A failed transaction uses up either a budget of held
  reads or one withheld acknowledgment and leaves every peripheral alone, so the faults that are
  left go down by one with each attempt, and the first attempt without a fault is the only one
  that is felt.
-/
import Firmware.Proofs.I2c.Calm

namespace Firmware.I2c

namespace Simulator

variable {base : UInt64} {s : Simulator} {p : Peripheral}

/-- How many transactions of a budget with an attached peripheral fail before one succeeds. -/
def faults (s : Simulator) (budget : Nat) : Nat := s.heldReads / budget + s.nacks

theorem faults_looked {budget : Nat} (hbudget : 0 < budget) (hheld : budget ≤ s.heldReads) :
    (s.looked budget).faults budget + 1 = s.faults budget := by
  have hdiv := Nat.div_eq_sub_div hbudget hheld
  show (s.heldReads - budget) / budget + s.nacks + 1 = s.heldReads / budget + s.nacks
  omega

theorem faults_refused {t : Transaction} (hfree : s.heldReads < t.budget)
    (hattached : (s.target? t).isSome) (hfaults : 0 < s.faults t.budget) :
    (s.refused t).faults t.budget + 1 = s.faults t.budget := by
  have hdiv := Nat.div_eq_of_lt hfree
  simp only [faults, hdiv] at hfaults
  simp only [faults, refused, hattached, hdiv, Nat.zero_div, if_true]
  omega

/-- A transaction that fails leaves every peripheral as it was, and one fault less. -/
theorem run_fault (h : s.Sound base) (t : Transaction) (hbudget : 0 < t.budget)
    (hfault : s.target? t = none ∨ s.stalled = true ∨ 0 < s.faults t.budget) :
    ∃ phase after, t.run (bare base) s = (.error phase, t.payload, after) ∧
      after.Sound base ∧ after.peripherals = s.peripherals ∧ after.stalled = s.stalled ∧
      ((s.target? t).isSome → 0 < s.faults t.budget →
        after.faults t.budget + 1 = s.faults t.budget) := by
  rcases Nat.lt_or_ge s.heldReads t.budget with hfree | hheld
  · have hrefused : s.target? t = none ∨ 0 < s.nacks ∨ s.stalled = true := by
      rcases hfault with hnone | hstalled | hfaults
      · exact .inl hnone
      · exact .inr (.inr hstalled)
      · rw [faults, Nat.div_eq_of_lt hfree, Nat.zero_add] at hfaults
        exact .inr (.inl hfaults)
    exact ⟨.addressPhase, s.refused t, run_refused h t hfree hrefused,
      h.keep rfl rfl, rfl, rfl, faults_refused hfree⟩
  · exact ⟨.busFree, s.looked t.budget, run_held h.base_eq t hheld,
      h.keep rfl rfl, rfl, rfl, fun _ _ => faults_looked hbudget hheld⟩

/-- Without faults a transaction with an attached peripheral is delivered. -/
theorem run_faultless (h : s.Sound base) (t : Transaction) (hbudget : 0 < t.budget)
    (hp : s.target? t = some p) (hstalled : s.stalled = false)
    (hfaults : s.faults t.budget = 0) :
    t.run (bare base) s = (.ok (), (t.payload.deliver p).1, s.delivered t p) := by
  obtain ⟨hdiv, hnacks⟩ := Nat.add_eq_zero_iff.mp hfaults
  have hfree : s.heldReads < t.budget := (Nat.div_eq_zero_iff_lt hbudget).mp hdiv
  exact run_delivered h t hfree hp hnacks hstalled

/-- Whether the next `n` transactions with an address all fail. -/
def fails (s : Simulator) (budget n : Nat) (address : UInt8) : Prop :=
  s.peripheral? address = none ∨ s.stalled = true ∨ n ≤ s.faults budget

theorem fails_after {after : Simulator} {budget n : Nat} {address : UInt8}
    (hfail : s.fails budget (n + 1) address) (hperipherals : after.peripherals = s.peripherals)
    (hstalled : after.stalled = s.stalled)
    (hfaults : (s.peripheral? address).isSome → 0 < s.faults budget →
      after.faults budget + 1 = s.faults budget) : after.fails budget n address := by
  have hsame := peripheral?_congr hperipherals address
  rcases hfail with hnone | hstall | hmore
  · exact .inl (hsame.trans hnone)
  · exact .inr (.inl (hstalled.trans hstall))
  · cases hp : s.peripheral? address with
    | none => exact .inl (hsame.trans hp)
    | some p =>
      have hless := hfaults (Option.isSome_iff_exists.mpr ⟨p, hp⟩) (Nat.zero_lt_of_lt hmore)
      exact .inr (.inr (by omega))

end Simulator

namespace Controller

open Simulator

variable {c : Controller Simulator} {p : Peripheral}

/-- Attempts at a peripheral that cannot be reached, or with a fault for each of them, all fail
and leave no trace. -/
theorem attempts_fail (h : c.bus.Sound c.config.baseAddress)
    (hbudget : 0 < c.config.timeoutBudget.toNat) (limit : Nat) (address : Address)
    (payload : Payload) (remaining : Nat)
    (hfail : c.bus.fails c.config.timeoutBudget.toNat remaining address.value) :
    ∃ c', c.attempts alone limit address.value remaining payload = (.error .failed, payload, c') ∧
      c'.bus.peripherals = c.bus.peripherals := by
  induction remaining generalizing c with
  | zero => exact ⟨c, rfl, rfl⟩
  | succ remaining ih =>
    obtain ⟨phase, after, hrun, hsound, hperipherals, hstalled, hfaults⟩ :=
      run_fault h (c.exchanged address payload) hbudget
        (hfail.imp_right (.imp_right fun h => Nat.zero_lt_of_lt h))
    obtain ⟨c₁, hattempts, hconfig, rfl, -⟩ := attempts_of_error alone limit remaining hrun
    have hfail' := fails_after hfail hperipherals hstalled hfaults
    rw [← hconfig] at hsound hbudget hfail'
    obtain ⟨c', hrest, hkept⟩ := ih hsound hbudget hfail'
    exact ⟨c', hattempts.trans hrest, hkept.trans hperipherals⟩

/-- With more attempts than faults, the one after the last fault is felt, and it alone. -/
theorem attempts_succeed (h : c.bus.Sound c.config.baseAddress)
    (hbudget : 0 < c.config.timeoutBudget.toNat) (limit : Nat) (address : Address)
    (payload : Payload) (remaining : Nat) (hp : c.bus.peripheral? address.value = some p)
    (hstalled : c.bus.stalled = false)
    (hfaults : c.bus.faults c.config.timeoutBudget.toNat < remaining) :
    ∃ c', c.attempts alone limit address.value remaining payload =
        (.ok (), (payload.deliver p).1, c') ∧
      c.CalmAfter c' (c.bus.place address.value (some (payload.deliver p).2)).peripherals ∧
      c'.statistics.retries =
        c.statistics.retries + c.bus.faults c.config.timeoutBudget.toNat := by
  induction remaining generalizing c with
  | zero => omega
  | succ remaining ih =>
    -- Each failed attempt takes one fault with it, so the attempts still outnumber the faults.
    rcases Nat.eq_zero_or_pos (c.bus.faults c.config.timeoutBudget.toNat) with hnone | hsome
    · have hrun := run_faultless h (c.exchanged address payload) hbudget hp hstalled hnone
      obtain ⟨_, hattempts⟩ := attempts_of_ok alone limit remaining hrun
      have hnacks : c.bus.nacks = 0 := (Nat.add_eq_zero_iff.mp hnone).2
      refine ⟨_, hattempts, ⟨rfl, h.calm_delivered hnacks hstalled _ p, rfl⟩, ?_⟩
      rw [hnone]
      rfl
    · obtain ⟨phase, after, hrun, hsound, hperipherals, hstalled', hless⟩ :=
        run_fault h (c.exchanged address payload) hbudget (.inr (.inr hsome))
      obtain ⟨c₁, hattempts, hconfig, rfl, hstatistics⟩ :=
        attempts_of_error alone limit remaining hrun
      have hless : c₁.bus.faults c.config.timeoutBudget.toNat + 1 =
          c.bus.faults c.config.timeoutBudget.toNat :=
        hless (Option.isSome_iff_exists.mpr ⟨p, hp⟩) hsome
      have hretry : c₁.statistics.retries = c.statistics.retries + 1 := by
        rw [hstatistics, if_neg (by omega), Statistics.countRetry, Statistics.retries_count]
      rw [← hconfig] at hsound hbudget
      obtain ⟨c', hrest, hfelt, hretries⟩ := ih hsound hbudget
        ((peripheral?_congr hperipherals _).trans hp) (hstalled'.trans hstalled)
        (by rw [hconfig]; omega)
      refine ⟨c', hattempts.trans hrest, ⟨hfelt.config_eq.trans hconfig, ?_, ?_⟩, ?_⟩
      · rw [← hconfig]
        exact hfelt.calm
      · rw [hfelt.peripherals_eq, place, place, hperipherals]
      · rw [hretries, hretry, hconfig]
        omega

/-! ## With any hook that leaves the simulator alone -/

variable {τ : Type}

/-- A controller whose simulator has no held read and no withheld acknowledgment left. -/
def calmed (c : Controller (Simulator × τ)) : Controller (Simulator × τ) :=
  { c with bus := ((c.bus.1.holdBus 0).nackNext 0, c.bus.2) }

/-- Whether an exchange with an address, tried up to `limit` times, gets through to somebody. -/
def getsThrough (c : Controller (Simulator × τ)) (address : Address) (limit : Nat) : Prop :=
  (c.bus.1.peripheral? address.value).isSome ∧ c.bus.1.stalled = false ∧
    c.bus.1.heldReads / c.config.timeoutBudget.toNat + c.bus.1.nacks < limit

/-- With more attempts than faults an exchange is delivered, and no fault is left. -/
theorem exchangeWithRetries_delivered {relax : Simulator × τ → Simulator × τ}
    {c : Controller (Simulator × τ)} (harmless : ∀ s, (relax s).1 = s.1)
    (sound : c.bus.1.Sound c.config.baseAddress) (hbudget : 0 < c.config.timeoutBudget.toNat)
    (address : Address) (payload : Payload) (hp : c.bus.1.peripheral? address.value = some p)
    (hstalled : c.bus.1.stalled = false) {limit : Nat}
    (hfaults : c.bus.1.faults c.config.timeoutBudget.toNat < limit) :
    ∃ c', c.exchangeWithRetries (hosted relax) limit address.value payload =
        (.ok (), (payload.deliver p).1, c') ∧
      c.seen.CalmAfter c'.seen
        (c.bus.1.place address.value (some (payload.deliver p).2)).peripherals ∧
      c'.statistics.retries =
        c.statistics.retries + c.bus.1.faults c.config.timeoutBudget.toNat := by
  obtain ⟨hresult, hpayload, hseen⟩ :=
    exchangeWithRetries_seen harmless c limit address.value payload
  obtain ⟨d, htried, hfelt, hretries⟩ :=
    attempts_succeed (c := c.seen) sound hbudget limit address payload limit hp hstalled hfaults
  rw [exchangeWithRetries_pos alone (Nat.zero_lt_of_lt hfaults), htried] at hresult hpayload hseen
  refine ⟨_, Prod.ext hresult (Prod.ext hpayload rfl), ?_, ?_⟩
  · rw [hseen]
    exact hfelt
  · exact (congrArg (fun d => d.statistics.retries) hseen).trans hretries

/-- An exchange that is tried up to `limit` times either does what it does without faults, after
one retry for each fault, or it does nothing. -/
theorem exchangeWithRetries_once_or_never {relax : Simulator × τ → Simulator × τ}
    {c : Controller (Simulator × τ)} (harmless : ∀ s, (relax s).1 = s.1)
    (sound : c.bus.1.Sound c.config.baseAddress) (hbudget : 0 < c.config.timeoutBudget.toNat)
    (address : Address) (payload : Payload) (limit : Nat) :
    (c.getsThrough address limit → ∃ payload' once c',
      c.calmed.exchange (hosted relax) address.value payload = (.ok (), payload', once) ∧
      c.exchangeWithRetries (hosted relax) limit address.value payload = (.ok (), payload', c') ∧
      c'.bus.1.peripherals = once.bus.1.peripherals ∧
      c'.statistics.retries = c.statistics.retries +
        (c.bus.1.heldReads / c.config.timeoutBudget.toNat + c.bus.1.nacks)) ∧
    (¬c.getsThrough address limit → ∃ c',
      c.exchangeWithRetries (hosted relax) limit address.value payload =
        (.error .failed, payload, c') ∧
      c'.bus.1.peripherals = c.bus.1.peripherals) := by
  constructor
  · rintro ⟨hattached, hstalled, hfaults⟩
    obtain ⟨p, hp⟩ := Option.isSome_iff_exists.mp hattached
    have calm : c.calmed.bus.1.Calm c.config.baseAddress :=
      { sound.keep rfl rfl with free := rfl, willing := rfl, running := hstalled }
    obtain ⟨once, honce, hfelt⟩ :=
      exchange_delivered (c := c.calmed) harmless calm hbudget address payload hp
    obtain ⟨c', htried, hfelt', hretries⟩ :=
      exchangeWithRetries_delivered harmless sound hbudget address payload hp hstalled hfaults
    exact ⟨_, once, c', honce, htried,
      hfelt'.peripherals_eq.trans hfelt.peripherals_eq.symm, hretries⟩
  · intro hfail
    obtain ⟨hresult, hpayload, hseen⟩ :=
      exchangeWithRetries_seen harmless c limit address.value payload
    have hfail : c.bus.1.fails c.config.timeoutBudget.toNat limit address.value := by
      simp only [getsThrough, not_and_or, Option.not_isSome_iff_eq_none, Bool.not_eq_false,
        Nat.not_lt] at hfail
      exact hfail
    rcases Nat.eq_zero_or_pos limit with rfl | hlimit
    · rw [exchangeWithRetries_zero alone] at hresult hpayload hseen
      refine ⟨_, Prod.ext hresult (Prod.ext hpayload rfl), ?_⟩
      exact congrArg (fun d => d.bus.peripherals) hseen
    · obtain ⟨d, htried, hperipherals⟩ :=
        attempts_fail (c := c.seen) sound hbudget limit address payload limit hfail
      rw [exchangeWithRetries_pos alone hlimit, htried] at hresult hpayload hseen
      refine ⟨_, Prod.ext hresult (Prod.ext hpayload rfl), ?_⟩
      exact (congrArg (fun d => d.bus.peripherals) hseen).trans hperipherals

/-- **Repeated transfers take effect once or never.** On a simulator in any reachable state, with
any relax hook that leaves it alone, sending and receiving in up to `limit` attempts succeed
exactly if somebody is there, the simulator is not stalled and fewer transactions fail than there
are attempts. A success leaves the peripherals, and the buffer, as one transaction without faults
does and counts one retry for each fault; a failure leaves them as they were. -/
theorem retries_once_or_never {relax : Simulator × τ → Simulator × τ}
    (harmless : ∀ s, (relax s).1 = s.1) (c : Controller (Simulator × τ))
    (reachable : Reachable c.config.baseAddress c.bus.1)
    (hbudget : 0 < c.config.timeoutBudget.toNat) (address : Address) (limit : Nat) :
    let faults := c.bus.1.heldReads / c.config.timeoutBudget.toNat + c.bus.1.nacks
    let reached := (c.bus.1.peripheral? address.value).isSome ∧ c.bus.1.stalled = false ∧
      faults < limit
    (∀ bytes,
      let tried := c.sendWithRetries (hosted relax) address.value bytes limit
      let once := c.calmed.send (hosted relax) address.value bytes
      (tried.1 = .ok () ↔ reached) ∧
      (tried.1 = .ok () → once.1 = .ok () ∧
        tried.2.bus.1.peripherals = once.2.bus.1.peripherals ∧
        tried.2.statistics.retries = c.statistics.retries + faults) ∧
      (tried.1 ≠ .ok () → tried.1 = .error .failed ∧
        tried.2.bus.1.peripherals = c.bus.1.peripherals)) ∧
    (∀ buffer,
      let tried := c.receiveWithRetries (hosted relax) address.value buffer limit
      let once := c.calmed.receive (hosted relax) address.value buffer
      (tried.1 = .ok () ↔ reached) ∧
      (tried.1 = .ok () → once.1 = .ok () ∧ tried.2.1 = once.2.1 ∧
        tried.2.2.bus.1.peripherals = once.2.2.bus.1.peripherals ∧
        tried.2.2.statistics.retries = c.statistics.retries + faults) ∧
      (tried.1 ≠ .ok () → tried.1 = .error .failed ∧ tried.2.1 = buffer ∧
        tried.2.2.bus.1.peripherals = c.bus.1.peripherals)) := by
  have key (payload : Payload) :=
    exchangeWithRetries_once_or_never harmless reachable.sound hbudget address payload limit
  have hfailed : (Except.error .failed : Except Error Unit) ≠ .ok () := by simp
  refine ⟨fun bytes => ?_, fun buffer => ?_⟩
  · obtain ⟨hthrough, hfail⟩ := key (.write bytes)
    rw [sendWithRetries, send]
    by_cases h : c.getsThrough address limit
    · obtain ⟨payload', once, c', honce, htried, hperipherals, hretries⟩ := hthrough h
      rw [honce, htried]
      exact ⟨⟨fun _ => h, fun _ => rfl⟩, fun _ => ⟨rfl, hperipherals, hretries⟩,
        fun hne => absurd rfl hne⟩
    · obtain ⟨c', htried, hperipherals⟩ := hfail h
      rw [htried]
      exact ⟨⟨(absurd · hfailed), fun hreached => absurd hreached h⟩, (absurd · hfailed),
        fun _ => ⟨rfl, hperipherals⟩⟩
  · obtain ⟨hthrough, hfail⟩ := key (.read buffer)
    rw [receiveWithRetries, receive]
    by_cases h : c.getsThrough address limit
    · obtain ⟨payload', once, c', honce, htried, hperipherals, hretries⟩ := hthrough h
      rw [honce, htried]
      exact ⟨⟨fun _ => h, fun _ => rfl⟩, fun _ => ⟨rfl, rfl, hperipherals, hretries⟩,
        fun hne => absurd rfl hne⟩
    · obtain ⟨c', htried, hperipherals⟩ := hfail h
      rw [htried]
      exact ⟨⟨(absurd · hfailed), fun hreached => absurd hreached h⟩, (absurd · hfailed),
        fun _ => ⟨rfl, rfl, hperipherals⟩⟩

/-- Two held reads and one withheld acknowledgment, with one look at the status per wait: a
register is written at the fourth attempt, and three attempts are not enough. -/
theorem retries_once_or_never_four_three :
    let sim := (Handling.nackNext 1).applied ((Handling.holdBus 2).applied
      ((Handling.attach 0x50).applied (Simulator.create defaultBase)))
    let c := Controller.create { timeoutBudget := 1 } (sim, ())
    let address : Address := ⟨0x50, by decide⟩
    Reachable c.config.baseAddress c.bus.1 ∧ 0 < c.config.timeoutBudget.toNat ∧
    (c.sendWithRetries (hosted id) address.value [0x10, 7] 4).1 = .ok () ∧
    (c.sendWithRetries (hosted id) address.value [0x10, 7] 4).2.statistics.retries = 3 ∧
    (c.sendWithRetries (hosted id) address.value [0x10, 7] 3).1 = .error .failed ∧
    (c.sendWithRetries (hosted id) address.value [0x10, 7] 3).2.bus.1.peripherals =
      c.bus.1.peripherals := by
  intro sim c address
  have harmless (s : Simulator × Unit) : (id s).1 = s.1 := rfl
  have reachable : Reachable c.config.baseAddress c.bus.1 :=
    .handle (.nackNext 1) (.handle (.holdBus 2) (.handle (.attach 0x50) .create))
  have attached : (c.bus.1.peripheral? 0x50).isSome := by
    have hplace := peripheral?_place (.create defaultBase) 0x50 (some {})
    exact Option.isSome_iff_exists.mpr ⟨_, hplace⟩
  have hbudget : 0 < c.config.timeoutBudget.toNat := by decide
  have tries (limit : Nat) :=
    (retries_once_or_never harmless c reachable hbudget address limit).1 [0x10, 7]
  obtain ⟨hiff, hok, -⟩ := tries 4
  obtain ⟨hiff', -, hfailed⟩ := tries 3
  have hfour := hiff.mpr ⟨attached, rfl, by decide⟩
  have hthree := hfailed fun h => absurd (hiff'.mp h).2.2 (by decide)
  have hfaults : c.statistics.retries +
      (c.bus.1.heldReads / c.config.timeoutBudget.toNat + c.bus.1.nacks) = 3 := by decide
  exact ⟨reachable, hbudget, hfour, (hok hfour).2.2.trans hfaults, hthree⟩

end Controller

end Firmware.I2c
