/-
  Firmware: two pieces of hardware that a controller cannot tell apart. Of a status word a
  controller looks at its two flags, of a data word at its lowest byte; where these agree, along
  a relation of the states that every access and the hook keep, transactions and everything
  made of them come out alike.
-/
import Firmware.Proofs.I2c.Dialogues
import Firmware.Proofs.Observation

namespace Firmware.I2c

/-- The same answer, together with related states. -/
inductive Alike {α σ τ : Type} (related : σ → τ → Prop) : α × σ → α × τ → Prop where
  | intro (answer : α) {s : σ} {t : τ} (h : related s t) : Alike related (answer, s) (answer, t)

theorem Alike.of_eq {α σ τ : Type} {related : σ → τ → Prop} {x : α × σ} {y : α × τ}
    (hanswer : x.1 = y.1) (h : related x.2 y.2) : Alike related x y := by
  obtain ⟨answer, t⟩ := y
  obtain ⟨answer', s⟩ := x
  obtain rfl : answer' = answer := hanswer
  exact .intro answer' h

theorem Alike.answer_eq {α σ τ : Type} {related : σ → τ → Prop} {x : α × σ} {y : α × τ}
    (h : Alike related x y) : x.1 = y.1 := by
  cases h
  rfl

variable {σ τ : Type} {first : Hardware σ} {second : Hardware τ} {related : σ → τ → Prop}

/-- The hardware in the window of a controller, here and there: what a controller looks at is the
same in related states, and accesses and the hook lead to related states. -/
structure Agrees (first : Hardware σ) (second : Hardware τ) (related : σ → τ → Prop) : Prop where
  status {s t} : related s t →
    StatusFlags.ofWord (first.read statusOffset s).1 =
        .ofWord (second.read statusOffset t).1 ∧
      related (first.read statusOffset s).2 (second.read statusOffset t).2
  data {s t} : related s t →
    (first.read dataOffset s).1.toUInt8 = (second.read dataOffset t).1.toUInt8 ∧
      related (first.read dataOffset s).2 (second.read dataOffset t).2
  control {s t} : related s t →
    Alike related (first.read controlOffset s) (second.read controlOffset t)
  write {s t} (offset : UInt64) (word : UInt32) : related s t →
    related (first.write offset word s) (second.write offset word t)
  relax {s t} : related s t → related (first.relax s) (second.relax t)

theorem Dialogue.run_alike {α : Type} (agrees : Agrees first second related) (d : Dialogue α)
    {s : σ} {t : τ} (h : related s t) : Alike related (d.run first s) (d.run second t) := by
  induction d generalizing s t with
  | done answer => exact .intro answer h
  | look next ih =>
    obtain ⟨hflags, hnext⟩ := agrees.status h
    rw [run, run, hflags]
    exact ih _ hnext
  | take next ih =>
    obtain ⟨hbyte, hnext⟩ := agrees.data h
    rw [run, run, hbyte]
    exact ih _ hnext
  | consult next ih =>
    have hread := agrees.control h
    rw [run, run]
    generalize first.read controlOffset s = x at hread ⊢
    generalize second.read controlOffset t = y at hread ⊢
    cases hread with
    | intro word hnext => exact ih word hnext
  | write offset word next ih => exact ih (agrees.write offset word h)
  | relax next ih => exact ih (agrees.relax h)

/-- An answer of two parts is the same if each of them is. -/
theorem Alike.unpaired {α β : Type} {x : α × β × σ} {y : α × β × τ}
    (h : Alike related (paired x) (paired y)) : Alike (Alike related) x y := by
  obtain ⟨a, b, s⟩ := x
  obtain ⟨a', b', t⟩ := y
  cases h with
  | intro answer h => exact .intro a (.intro b h)

/-- Hardware answers as other hardware does whose states are seen through a function. -/
theorem Agrees.ofView {f : σ → τ} (base : UInt64)
    (hread : ∀ address s,
      second.read address (f s) = ((first.read address s).1, f (first.read address s).2))
    (hwrite : ∀ address word s,
      second.write address word (f s) = f (first.write address word s))
    (hrelax : ∀ s, second.relax (f s) = f (first.relax s)) :
    Agrees (first.window base) (second.window base) (fun s t => f s = t) where
  status {s t} h := by
    subst h
    have hstatus := (hread (base + statusOffset) s).symm
    exact ⟨congrArg (fun answered => StatusFlags.ofWord answered.1) hstatus,
      congrArg Prod.snd hstatus⟩
  data {s t} h := by
    subst h
    have hdata := (hread (base + dataOffset) s).symm
    exact ⟨congrArg (fun answered => answered.1.toUInt8) hdata, congrArg Prod.snd hdata⟩
  control {s t} h := by
    subst h
    have hcontrol := (hread (base + controlOffset) s).symm
    exact .of_eq (congrArg Prod.fst hcontrol) (congrArg Prod.snd hcontrol)
  write {s t} offset word h := by
    subst h
    exact (hwrite (base + offset) word s).symm
  relax {s t} h := by
    subst h
    exact (hrelax s).symm

theorem Agrees.run (agrees : Agrees first second related) (t : Transaction) {s : σ} {s' : τ}
    (h : related s s') : Alike (Alike related) (t.run first s) (t.run second s') := by
  obtain ⟨d, hd⟩ := run_isDialogue t
  have halike := d.run_alike agrees h
  rw [← hd, ← hd] at halike
  exact halike.unpaired

/-! ## Controllers -/

namespace Controller

/-- Controllers at `base` that differ in their hardware only, whose states are related. -/
inductive Related (related : σ → τ → Prop) (base : UInt64) :
    Controller σ → Controller τ → Prop where
  | intro {config : Config} (statistics : Statistics) (journal : Journal) {s : σ} {t : τ}
    (hbase : config.baseAddress = base) (h : related s t) :
    Related related base { config, bus := s, statistics, journal }
      { config, bus := t, statistics, journal }

variable {base : UInt64} {c : Controller σ} {d : Controller τ}

theorem Conducted.alike {α : Type}
    {work : (σ : Type) → Hardware σ → Controller σ → α × Controller σ}
    (hwork : Conducted c.config work)
    (agrees : Agrees (first.window base) (second.window base) related)
    (h : Related related base c d) :
    Alike (Related related base) (work σ first c) (work τ second d) := by
  cases h with
  | intro statistics journal hbase h =>
    obtain ⟨dialogue, hd⟩ := hwork statistics journal
    have halike := dialogue.run_alike agrees h
    rw [hd, hd, hbase]
    generalize dialogue.run (first.window base) _ = x at halike ⊢
    generalize dialogue.run (second.window base) _ = y at halike ⊢
    cases halike with
    | intro answer h => exact .intro answer.1 (.intro _ _ hbase h)

/-! ## States seen through a function -/

/-- The controller over hardware states that are seen through a function. -/
def mapBus (f : σ → τ) (c : Controller σ) : Controller τ :=
  { config := c.config, bus := f c.bus, statistics := c.statistics, journal := c.journal }

variable {f : σ → τ}

theorem Related.eq_mapBus (h : Related (fun s t => f s = t) base c d) : d = c.mapBus f := by
  cases h with
  | intro statistics journal hbase h =>
    subst h
    rfl

theorem related_mapBus (c : Controller σ) :
    Related (fun s t => f s = t) c.config.baseAddress c (c.mapBus f) :=
  .intro c.statistics c.journal rfl rfl

/-- The same work on hardware that answers alike: the answer is the same, and the states left behind
are seen through the function. -/
theorem Conducted.mapBus {α : Type}
    {work : (σ : Type) → Hardware σ → Controller σ → α × Controller σ} {c : Controller σ}
    (hwork : Conducted c.config work)
    (agrees : Agrees (first.window c.config.baseAddress) (second.window c.config.baseAddress)
      (fun s t => f s = t)) :
    work τ second (c.mapBus f) = ((work σ first c).1, (work σ first c).2.mapBus f) := by
  have halike := hwork.alike agrees (related_mapBus c)
  generalize work σ first c = x at halike ⊢
  generalize work τ second (c.mapBus f) = y at halike ⊢
  cases halike with
  | intro answer h => rw [h.eq_mapBus]

theorem execute_mapBus {c : Controller σ}
    (agrees : Agrees (first.window c.config.baseAddress) (second.window c.config.baseAddress)
      (fun s t => f s = t)) (t : Transaction) :
    let executed := c.execute first t
    (c.mapBus f).execute second t = (executed.1, executed.2.1, executed.2.2.mapBus f) :=
  eq_of_paired ((execute_conducted t).mapBus agrees)

theorem exchange_mapBus {c : Controller σ}
    (agrees : Agrees (first.window c.config.baseAddress) (second.window c.config.baseAddress)
      (fun s t => f s = t)) (address : UInt8) (payload : Payload) :
    let exchanged := c.exchange first address payload
    (c.mapBus f).exchange second address payload =
      (exchanged.1, exchanged.2.1, exchanged.2.2.mapBus f) :=
  eq_of_paired ((exchange_conducted address payload).mapBus agrees)

theorem exchangeWithRetries_mapBus {c : Controller σ}
    (agrees : Agrees (first.window c.config.baseAddress) (second.window c.config.baseAddress)
      (fun s t => f s = t)) (limit : Nat) (address : UInt8) (payload : Payload) :
    let exchanged := c.exchangeWithRetries first limit address payload
    (c.mapBus f).exchangeWithRetries second limit address payload =
      (exchanged.1, exchanged.2.1, exchanged.2.2.mapBus f) :=
  eq_of_paired ((exchangeWithRetries_conducted limit address payload).mapBus agrees)

theorem scan_mapBus {c : Controller σ}
    (agrees : Agrees (first.window c.config.baseAddress) (second.window c.config.baseAddress)
      (fun s t => f s = t)) :
    (c.mapBus f).scan second = ((c.scan first).1, (c.scan first).2.mapBus f) :=
  scan_conducted.mapBus agrees

/-- A controller with the same hardware, which was not asked for anything yet. -/
def observed (c : Controller σ) : Controller (Observed σ) := c.mapBus fun s => { state := s }

end Controller

/-- Hardware answers alike, whether or not what it is asked for is kept. -/
theorem Observed.agrees (hardware : Hardware σ) (base : UInt64) :
    Agrees (hardware.observed.window base) (hardware.window base) (fun o s => o.state = s) :=
  .ofView base (fun _ _ => rfl) (fun _ _ _ => rfl) fun _ => rfl

end Firmware.I2c
