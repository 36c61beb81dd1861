/-
  Firmware: what each operation of an interrupt table does to its parts. Registering and removing
  change what is found on one line and nothing else; masking asks the controller at most once and
  changes nothing but it and the journal; saving and restoring leave the handlers alone.
-/
import Firmware.Interrupts.Table

namespace Firmware

variable {κ η : Type}

/-- What comes of dispatching a line, from what is registered on it. -/
def Dispatch.of : Option (Descriptor η) → Dispatch η
  | some d => .handled d.handler d.context d.priority
  | none => .noHandler

namespace InterruptTable

variable (table : InterruptTable κ η)

theorem note_descriptors (n : InterruptNote) :
    (table.note n).descriptors = table.descriptors := rfl

variable {table} {line : Nat}

/-! ## Handlers -/

theorem descriptor?_congr {table' : InterruptTable κ η}
    (h : table'.descriptors = table.descriptors) (line : Nat) :
    table'.descriptor? line = table.descriptor? line := by
  rw [descriptor?, descriptor?, h]

theorem descriptor?_create (controller : κ) (journal : Journal) (line : Nat) :
    (create controller journal : InterruptTable κ η).descriptor? line = none := by
  show (Vector.replicate interruptLines none)[line]?.join = none
  rw [Vector.getElem?_replicate]
  split <;> rfl

theorem descriptor?_of_le (h : interruptLines ≤ line) : table.descriptor? line = none := by
  rw [descriptor?, Vector.getElem?_eq_none h]
  rfl

theorem descriptor?_set (h : line < interruptLines) (slot : Option (Descriptor η)) (other : Nat) :
    (table.descriptors.set line slot)[other]?.join =
      if line = other then slot else table.descriptor? other := by
  rw [Vector.getElem?_set]
  split
  · rfl
  · rfl

theorem register_of_lt (h : line < interruptLines) (handler : η) (context : UInt64)
    (priority : UInt32) : ∃ journal, table.register line handler context priority =
      (.ok (), { table with
        descriptors := table.descriptors.set line (some { line, handler, context, priority })
        journal }) := by
  rw [register, dif_pos h]
  split <;> exact ⟨_, rfl⟩

theorem register_of_le (h : interruptLines ≤ line) (handler : η) (context : UInt64)
    (priority : UInt32) :
    table.register line handler context priority = (.error (.outOfRange line), table) :=
  dif_neg (Nat.not_lt.mpr h)

theorem remove_of_lt (h : line < interruptLines) : ∃ journal, table.remove line =
    { table with descriptors := table.descriptors.set line none, journal } := by
  rw [remove, dif_pos h]
  exact ⟨_, rfl⟩

theorem remove_of_le (h : interruptLines ≤ line) :
    table.remove line = table.note (.noSuchLineToRemove line) :=
  dif_neg (Nat.not_lt.mpr h)

theorem remove_controller (table : InterruptTable κ η) (line : Nat) :
    (table.remove line).controller = table.controller := by
  unfold remove
  split <;> rfl

theorem descriptor?_remove (table : InterruptTable κ η) (line other : Nat) :
    (table.remove line).descriptor? other =
      if line = other then none else table.descriptor? other := by
  by_cases h : line < interruptLines
  · obtain ⟨journal, hremove⟩ := table.remove_of_lt h
    rw [hremove]
    exact descriptor?_set h none other
  · rw [remove_of_le (Nat.not_lt.mp h), descriptor?_congr (note_descriptors ..)]
    split
    · rename_i same
      exact descriptor?_of_le (same ▸ Nat.not_lt.mp h)
    · rfl

theorem dispatch_eq (table : InterruptTable κ η) (line : Nat) :
    ∃ journal, table.dispatch line = (.of (table.descriptor? line), { table with journal }) := by
  unfold dispatch
  cases table.descriptor? line with
  | none => exact ⟨_, rfl⟩
  | some d => exact ⟨_, rfl⟩

theorem mem_registeredLines :
    line ∈ table.registeredLines ↔ (table.descriptor? line).isSome := by
  rw [registeredLines, List.mem_filter, List.mem_range, and_iff_right_iff_imp]
  intro found
  refine Nat.lt_of_not_le fun beyond => ?_
  rw [descriptor?_of_le beyond] at found
  cases found

theorem lt_of_mem_registeredLines (h : line ∈ table.registeredLines) : line < interruptLines :=
  List.mem_range.mp (List.mem_filter.mp h).1

/-- The least lines with a handler. -/
theorem filter_registeredLines {bound : Nat} (h : bound ≤ interruptLines)
    (table : InterruptTable κ η) : table.registeredLines.filter (· < bound) =
      (List.range bound).filter fun line => (table.descriptor? line).isSome := by
  have hrange : (List.range interruptLines).filter (· < bound) = List.range bound := by
    obtain ⟨more, hmore⟩ := Nat.exists_eq_add_of_le h
    rw [hmore, List.range_add, List.filter_append, List.filter_eq_self.mpr,
      List.filter_eq_nil_iff.mpr, List.append_nil]
    · simp
    · simp
  rw [registeredLines, List.filter_filter, ← hrange, List.filter_filter]
  exact List.filter_congr fun line _ => Bool.and_comm ..

theorem pairwise_registeredLines (table : InterruptTable κ η) :
    table.registeredLines.Pairwise (· < ·) :=
  List.pairwise_lt_range.filter _

/-! ## The controller -/

variable [InterruptController κ]

theorem mask_of_lt {masked : Bool} {result : Except PortFault (Except Error Unit)}
    {controller : κ} (h : line < interruptLines)
    (answered : InterruptController.setMasked line masked table.controller = (result, controller))
    (done : InterruptNote) :
    ∃ journal, table.mask line masked done = (result, { table with controller, journal }) := by
  rw [mask, if_pos h, answered]
  cases result with
  | error fault => exact ⟨_, rfl⟩
  | ok result => cases result <;> exact ⟨_, rfl⟩

theorem mask_of_le (h : interruptLines ≤ line) (masked : Bool) (done : InterruptNote) :
    table.mask line masked done =
      (.ok (.error (.outOfRange line)), table.note (.noSuchLine line)) :=
  if_neg (Nat.not_lt.mpr h)

theorem saveAndDisable_eq (table : InterruptTable κ η) : ∃ journal, table.saveAndDisable =
    ((InterruptController.saveAndDisable table.controller).1, { table with
      controller := (InterruptController.saveAndDisable table.controller).2
      saved := some (InterruptController.saveAndDisable table.controller).1
      journal }) := by
  simp only [saveAndDisable]
  split <;> exact ⟨_, rfl⟩

theorem saveAndDisable_controller (table : InterruptTable κ η) :
    table.saveAndDisable.2.controller =
      (InterruptController.saveAndDisable table.controller).2 := by
  obtain ⟨journal, h⟩ := table.saveAndDisable_eq
  rw [h]

theorem saveAndDisable_descriptors (table : InterruptTable κ η) :
    table.saveAndDisable.2.descriptors = table.descriptors := by
  obtain ⟨journal, h⟩ := table.saveAndDisable_eq
  rw [h]

theorem criticalSection_of_ok {α : Type} {body : InterruptTable κ η →
      Except PortFault α × InterruptTable κ η} {a : α} {inside : InterruptTable κ η}
    (h : body table.saveAndDisable.2 = (.ok a, inside)) :
    table.criticalSection body = (.ok a, inside.restore table.saveAndDisable.1) := by
  simp only [criticalSection, h]

end InterruptTable

end Firmware
