/-
  Firmware: which bits of a word that is read matter to a controller. Two runs of the same
  operations, on any hardware, are the same as long as what is read agrees in the two flags of
  status words, in the lowest byte of data words and in all other words.
-/
import Firmware.Proofs.I2c.Agreement
import Firmware.Proofs.I2c.RegisterMap

namespace Firmware.I2c

/-! ## Documented bits -/

/-- The bits of a register that have a meaning. -/
def documentedBits (base address : UInt64) : UInt32 :=
  if address = base + statusOffset then busyBit ||| doneBit
  else if address = base + dataOffset then 0xFF
  else 0xFFFFFFFF

/-- What is read in turn agrees in the bits that have a meaning, wherever the same register is
read. -/
def AgreeOnDocumented (base : UInt64) (readings readings' : List (UInt64 × UInt32)) : Prop :=
  ∀ x ∈ readings.zip readings', x.1.1 = x.2.1 →
    x.1.2 &&& documentedBits base x.1.1 = x.2.2 &&& documentedBits base x.1.1

instance (base : UInt64) (readings readings' : List (UInt64 × UInt32)) :
    Decidable (AgreeOnDocumented base readings readings') :=
  List.decidableBAll _ _

theorem AgreeOnDocumented.cons {base address : UInt64} {word word' : UInt32}
    {rest rest' : List (UInt64 × UInt32)}
    (h : AgreeOnDocumented base ((address, word) :: rest) ((address, word') :: rest')) :
    word &&& documentedBits base address = word' &&& documentedBits base address ∧
      AgreeOnDocumented base rest rest' := by
  obtain ⟨hfirst, hrest⟩ := List.forall_mem_cons.mp h
  exact ⟨hfirst rfl, hrest⟩

variable {base : UInt64} {word word' : UInt32}

theorem flags_eq (h : word &&& documentedBits base (base + statusOffset) =
    word' &&& documentedBits base (base + statusOffset)) :
    StatusFlags.ofWord word = .ofWord word' := by
  rw [documentedBits, if_pos rfl] at h
  have hbit (bit : UInt32) (hbit : (busyBit ||| doneBit) &&& bit = bit) :
      word &&& bit = word' &&& bit := by
    rw [← hbit, ← UInt32.and_assoc, h, UInt32.and_assoc]
  rw [StatusFlags.ofWord, hbit busyBit (by decide), hbit doneBit (by decide)]
  rfl

theorem byte_eq (h : word &&& documentedBits base (base + dataOffset) =
    word' &&& documentedBits base (base + dataOffset)) : word.toUInt8 = word'.toUInt8 := by
  rw [documentedBits, if_neg (data_ne_status base), if_pos rfl] at h
  have hbyte (word : UInt32) : (word &&& 0xFF).toUInt8 = word.toUInt8 := by
    rw [UInt32.toUInt8_and]
    exact UInt8.and_neg_one
  rw [← hbyte word, ← hbyte word', h]

theorem control_eq (h : word &&& documentedBits base (base + controlOffset) =
    word' &&& documentedBits base (base + controlOffset)) : word = word' := by
  rw [documentedBits, if_neg (control_ne_status base), if_neg (control_ne_data base)] at h
  have hall (word : UInt32) : word &&& 0xFFFFFFFF = word := UInt32.and_neg_one
  rw [hall, hall] at h
  exact h

/-! ## Two dialogues -/

namespace Dialogue

variable {α σ τ : Type}

/-- What a dialogue in the window at `base` asks for. -/
def trace (hardware : Hardware σ) (base : UInt64) : Dialogue α → σ → List Occurrence
  | .done _, _ => []
  | .look next, s =>
    let answered := (hardware.window base).read statusOffset s
    .access (.read (base + statusOffset) answered.1) ::
      (next (.ofWord answered.1)).trace hardware base answered.2
  | .take next, s =>
    let answered := (hardware.window base).read dataOffset s
    .access (.read (base + dataOffset) answered.1) ::
      (next answered.1.toUInt8).trace hardware base answered.2
  | .consult next, s =>
    let answered := (hardware.window base).read controlOffset s
    .access (.read (base + controlOffset) answered.1) ::
      (next answered.1).trace hardware base answered.2
  | .write offset word next, s =>
    .access (.write (base + offset) word) ::
      next.trace hardware base ((hardware.window base).write offset word s)
  | .relax next, s => .relaxed :: next.trace hardware base (hardware.relax s)

theorem answer_observed (hardware : Hardware σ) (base : UInt64) (d : Dialogue α) (o : Observed σ) :
    (d.run (hardware.observed.window base) o).1 = (d.run (hardware.window base) o.state).1 :=
  (d.run_alike (Observed.agrees hardware base) (Eq.refl o.state)).answer_eq

theorem occurrences_observed (hardware : Hardware σ) (base : UInt64) (d : Dialogue α)
    (o : Observed σ) : (d.run (hardware.observed.window base) o).2.occurrences =
      o.occurrences ++ d.trace hardware base o.state := by
  induction d generalizing o with
  | done answer => exact (List.append_nil _).symm
  | look next ih =>
    refine (ih _ _).trans ?_
    rw [trace, List.append_cons]
    exact congrArg (· ++ _) (Observed.occurrences_read hardware (base + statusOffset) o)
  | take next ih =>
    refine (ih _ _).trans ?_
    rw [trace, List.append_cons]
    exact congrArg (· ++ _) (Observed.occurrences_read hardware (base + dataOffset) o)
  | consult next ih =>
    refine (ih _ _).trans ?_
    rw [trace, List.append_cons]
    exact congrArg (· ++ _) (Observed.occurrences_read hardware (base + controlOffset) o)
  | write offset word next ih =>
    refine (ih _).trans ?_
    rw [trace, List.append_cons]
    exact congrArg (· ++ _) (Observed.occurrences_write hardware (base + offset) word o)
  | relax next ih =>
    refine (ih _).trans ?_
    rw [trace, List.append_cons]
    exact congrArg (· ++ _) (Observed.occurrences_relax hardware o)

/-- Two dialogues that are told the same in the bits that have a meaning ask for the same and come
to the same. -/
theorem run_lockstep (first : Hardware σ) (second : Hardware τ) (base : UInt64) (d : Dialogue α)
    (s : σ) (t : τ)
    (h : AgreeOnDocumented base (readings (d.trace first base s))
      (readings (d.trace second base t))) :
    (d.run (first.window base) s).1 = (d.run (second.window base) t).1 ∧
      (d.trace first base s).map Occurrence.request =
        (d.trace second base t).map Occurrence.request := by
  induction d generalizing s t with
  | done answer => exact ⟨rfl, rfl⟩
  | look next ih =>
    obtain ⟨hword, hrest⟩ := h.cons
    have hflags := flags_eq hword
    rw [run, run, trace, trace, ← hflags]
    rw [← hflags] at hrest
    obtain ⟨hanswer, hrequests⟩ := ih _ _ _ hrest
    exact ⟨hanswer, congrArg (Request.read (base + statusOffset) :: ·) hrequests⟩
  | take next ih =>
    obtain ⟨hword, hrest⟩ := h.cons
    have hbyte := byte_eq hword
    rw [run, run, trace, trace, ← hbyte]
    rw [← hbyte] at hrest
    obtain ⟨hanswer, hrequests⟩ := ih _ _ _ hrest
    exact ⟨hanswer, congrArg (Request.read (base + dataOffset) :: ·) hrequests⟩
  | consult next ih =>
    obtain ⟨hword, hrest⟩ := h.cons
    have hcontrol := control_eq hword
    rw [run, run, trace, trace, ← hcontrol]
    rw [← hcontrol] at hrest
    obtain ⟨hanswer, hrequests⟩ := ih _ _ _ hrest
    exact ⟨hanswer, congrArg (Request.read (base + controlOffset) :: ·) hrequests⟩
  | write offset word next ih =>
    obtain ⟨hanswer, hrequests⟩ := ih _ _ h
    exact ⟨hanswer, congrArg (Request.write (base + offset) word :: ·) hrequests⟩
  | relax next ih =>
    obtain ⟨hanswer, hrequests⟩ := ih _ _ h
    exact ⟨hanswer, congrArg (Request.relax :: ·) hrequests⟩

end Dialogue

/-! ## Two runs -/

namespace Controller

variable {α σ τ : Type}

theorem Conducted.observed {c : Controller σ}
    {work : (σ : Type) → Hardware σ → Controller σ → α × Controller σ}
    (hwork : Conducted c.config work) (hardware : Hardware σ) :
    let observed := work _ hardware.observed c.observed
    work _ hardware c = (observed.1, observed.2.mapBus Observed.state) :=
  hwork.mapBus (c := c.observed) (Observed.agrees hardware c.config.baseAddress)

/-- Work of a controller that is told the same in the bits that have a meaning asks for the same,
answers the same and counts and notes the same. -/
theorem Conducted.lockstep {c : Controller σ}
    {work : (σ : Type) → Hardware σ → Controller σ → α × Controller σ}
    (hwork : Conducted c.config work) (first : Hardware σ) (second : Hardware τ) (t : τ) :
    let here := work _ first.observed c.observed
    let there := work _ second.observed (c.mapBus fun _ => t).observed
    AgreeOnDocumented c.config.baseAddress (readings here.2.bus.occurrences)
        (readings there.2.bus.occurrences) →
      here.1 = there.1 ∧ here.2.statistics = there.2.statistics ∧
      here.2.journal = there.2.journal ∧
      here.2.bus.occurrences.map Occurrence.request =
        there.2.bus.occurrences.map Occurrence.request := by
  obtain ⟨config, s, statistics, journal⟩ := c
  obtain ⟨d, hd⟩ := hwork statistics journal
  intro here there h
  have hhere : here = concluded config (d.run (first.observed.window config.baseAddress) ⟨s, []⟩) :=
    hd _ first.observed _
  have hthere : there = concluded config
      (d.run (second.observed.window config.baseAddress) ⟨t, []⟩) := hd _ second.observed _
  rw [hhere, hthere] at h ⊢
  dsimp only [concluded] at h ⊢
  rw [Dialogue.answer_observed, Dialogue.answer_observed]
  rw [Dialogue.occurrences_observed, Dialogue.occurrences_observed] at h ⊢
  obtain ⟨hanswer, hrequests⟩ := Dialogue.run_lockstep first second config.baseAddress d s t h
  dsimp only
  rw [hanswer]
  exact ⟨rfl, rfl, rfl, hrequests⟩

/-- **Only the documented bits matter.** Let two controllers, equal up to their hardware, carry out
the same operations, none of which answers registers as they read, on any hardware with any relax
hook. If what the two of them read in turn agrees in the two flags of status words, in the lowest
byte of data words and in all bits of other words, then they answer the same, also as to received
buffers, they count and note the same, and they ask for the same: the registers that they read,
what they write, and the calls of the hook come in one and the same order. -/
theorem documented_bits_suffice (first : Hardware σ) (second : Hardware τ) (c : Controller σ)
    (t : τ) (operations : List Operation)
    (hraw : ∀ operation ∈ operations, operation.isRaw = false) :
    let d := c.mapBus fun _ => t
    let here := c.observed.run first.observed operations
    let there := d.observed.run second.observed operations
    (c.run first operations = (here.1, here.2.mapBus Observed.state) ∧
      d.run second operations = (there.1, there.2.mapBus Observed.state)) ∧
    (AgreeOnDocumented c.config.baseAddress (readings here.2.bus.occurrences)
        (readings there.2.bus.occurrences) →
      here.1 = there.1 ∧ here.2.statistics = there.2.statistics ∧
      here.2.journal = there.2.journal ∧
      here.2.bus.occurrences.map Occurrence.request =
        there.2.bus.occurrences.map Occurrence.request) :=
  ⟨⟨(run_conducted operations hraw).observed first,
      (run_conducted operations hraw).observed second⟩,
    (run_conducted operations hraw).lockstep first second t⟩

/-- On hardware that answers all reads with Done and on hardware that adds all bits without a
meaning, a receive of two bytes comes to the same. -/
theorem documented_bits_suffice_receive :
    let first : Hardware Unit :=
      { read := fun _ s => (doneBit, s), write := fun _ _ s => s, relax := id }
    let second : Hardware Unit :=
      { read := fun address s =>
          (if address = defaultBase + statusOffset then 0xFFFFFFFE
            else if address = defaultBase + dataOffset then 0xABCDEF02 else doneBit, s),
        write := fun _ _ s => s, relax := id }
    let c := Controller.create { timeoutBudget := 1 } ()
    let operations : List Operation := [.receive 0x50 [0, 0]]
    (∀ operation ∈ operations, operation.isRaw = false) ∧
    (c.observed.run first.observed operations).1 =
      (c.observed.run second.observed operations).1 := by
  intro first second c operations
  have hraw : ∀ operation ∈ operations, operation.isRaw = false := by decide
  have hagree : AgreeOnDocumented defaultBase
      (readings (c.observed.run first.observed operations).2.bus.occurrences)
      (readings (c.observed.run second.observed operations).2.bus.occurrences) := by
    decide +kernel
  exact ⟨hraw, ((documented_bits_suffice first second c () operations hraw).2 hagree).1⟩

end Controller

end Firmware.I2c
