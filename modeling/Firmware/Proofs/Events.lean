/-
  Firmware: events in a row. A relation holds along them if it holds of every event with those in
  front of it, and what is the case after them is what the latest of them says that says anything.
  Both are shown event by event, or part by part.
-/

namespace Firmware

variable {α β : Type} {P : List α → α → Prop} {a : α} {l l' : List α}

/-- Every event is related to those in front of it. -/
def Along (P : List α → α → Prop) (l : List α) : Prop :=
  ∀ before a after, l = before ++ a :: after → P before a

theorem along_nil : Along P [] := by
  intro before a after h
  exact absurd h (by simp)

theorem along_cons (head : P [] a) (tail : Along (fun before => P (a :: before)) l) :
    Along P (a :: l) := by
  intro before b after h
  cases before with
  | nil =>
    obtain ⟨rfl, -⟩ := List.cons.inj h
    exact head
  | cons c before =>
    obtain ⟨rfl, hrest⟩ := List.cons.inj h
    exact tail before b after hrest

theorem along_append (first : Along P l) (second : Along (fun before => P (l ++ before)) l') :
    Along P (l ++ l') := by
  intro before a after h
  rcases List.append_eq_append_iff.mp h with ⟨middle, rfl, hsecond⟩ | ⟨middle, rfl, hrest⟩
  · exact second middle a after hsecond
  · cases middle with
    | nil =>
      have hhead := second [] a after hrest.symm
      rwa [List.append_nil, List.append_nil] at hhead
    | cons b middle =>
      obtain ⟨rfl, -⟩ := List.cons.inj hrest
      exact first before a middle rfl

theorem Along.mono {Q : List α → α → Prop} (h : Along P l)
    (hPQ : ∀ before a, P before a → Q before a) : Along Q l :=
  fun before a after hl => hPQ before a (h before a after hl)

/-- What the latest event says of those that say anything; without one, what was the case before. -/
def latest (says? : α → Option β) (before : β) (events : List α) : β :=
  (events.filterMap says?).getLastD before

section

variable {says? : α → Option β} {before : β}

theorem latest_append (first second : List α) :
    latest says? before (first ++ second) = latest says? (latest says? before first) second := by
  simp only [latest, List.filterMap_append, List.getLastD_eq_getLast?, List.getLast?_append]
  cases (second.filterMap says?).getLast? <;> rfl

theorem latest_cons (event : α) (rest : List α) :
    latest says? before (event :: rest) = latest says? (latest says? before [event]) rest :=
  latest_append [event] rest

theorem latest_singleton (event : α) :
    latest says? before [event] = (says? event).getD before := by
  rw [latest, List.filterMap_cons]
  cases says? event <;> rfl

/-- Events that say nothing else leave it at that. -/
theorem latest_of_only {b : β} {events : List α}
    (only : ∀ event ∈ events, ∀ said, says? event = some said → said = b) :
    latest says? b events = b := by
  induction events with
  | nil => rfl
  | cons event rest ih =>
    have hevent : (says? event).getD b = b := by
      cases hsaid : says? event with
      | none => rfl
      | some said => exact only event List.mem_cons_self said hsaid
    rw [latest_cons, latest_singleton, hevent]
    exact ih fun event hmem => only event (List.mem_cons_of_mem _ hmem)

/-- What was not the case before is so after events exactly if one of them says it and none after
that one says otherwise. -/
theorem latest_eq_iff {b : β} (hbefore : before ≠ b) {events : List α} :
    latest says? before events = b ↔
      ∃ earlier event later, events = earlier ++ event :: later ∧ says? event = some b ∧
        ∀ event ∈ later, ∀ said, says? event = some said → said = b := by
  constructor
  · intro h
    have hlast : (events.filterMap says?).getLast? = some b := by
      rw [latest, List.getLastD_eq_getLast?] at h
      cases hlast : (events.filterMap says?).getLast? with
      | none => exact absurd (by rwa [hlast] at h) hbefore
      | some said => exact congrArg some (by rwa [hlast] at h)
    obtain ⟨said, hsaid⟩ := List.getLast?_eq_some_iff.mp hlast
    obtain ⟨earlier, rest, rfl, -, hrest⟩ := List.filterMap_eq_append_iff.mp hsaid
    obtain ⟨silent, event, later, rfl, -, hevent, hlater⟩ := List.filterMap_eq_cons_iff.mp hrest
    refine ⟨earlier ++ silent, event, later, (List.append_assoc ..).symm, hevent, ?_⟩
    intro event hmem said hsaid
    rw [List.filterMap_eq_nil_iff.mp hlater event hmem] at hsaid
    cases hsaid
  · rintro ⟨earlier, event, later, rfl, hevent, honly⟩
    rw [latest_append, latest_cons, latest_singleton, hevent]
    exact latest_of_only honly

end

end Firmware
