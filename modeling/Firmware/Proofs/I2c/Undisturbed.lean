/-
  Firmware: raw accesses and the peripherals that they do not address. The history of the
  accesses tells the state of the bus: it is idle or expects an opening byte, or a transfer goes
  on that such a byte opened and that neither START nor STOP ended. So only a peripheral that was
  named by an opening byte is touched, and only by the transfer that this byte opened.
-/
import Firmware.Proofs.I2c.RawAccesses

namespace Firmware.I2c

open Simulator

/-- Whether a write to the data register opens a transfer if it comes next: there was a START,
and neither a STOP nor a data byte since. -/
def Opens (base : UInt64) (accesses : List RawAccess) : Prop :=
  ∃ earlier start since, accesses = earlier ++ start :: since ∧
    start.event? base = some .start ∧
    ∀ access ∈ since, access.event? base = none ∨ access.event? base = some .start

/-- Accesses that end within a transfer: an attached peripheral acknowledged the opening byte, and
there was neither a START nor a STOP since. -/
structure Span (base : UInt64) (s : Simulator) (accesses earlier : List RawAccess)
    (opening : UInt32) (since : List RawAccess) : Prop where
  split : accesses = earlier ++ .write (base + dataOffset) opening :: since
  opens : Opens base earlier
  attached : ((s.afterAll earlier).peripheral? (opening.toUInt8 >>> 1)).isSome
  willing : (s.afterAll earlier).nacks = 0
  ongoing : ∀ access ∈ since, access.event? base ≠ some .start ∧ access.event? base ≠ some .stop

/-- What accesses to an idle simulator tell of the bus: its state, and whether the last byte was
transferred. -/
inductive Told (base : UInt64) (s : Simulator) (accesses : List RawAccess) :
    BusState → Bool → Prop where
  | idle : Told base s accesses .idle false
  | awaitAddress : Opens base accesses → Told base s accesses .awaitAddress false
  | ignored : Told base s accesses .ignored false
  | reading {earlier : List RawAccess} {opening : UInt32} {since : List RawAccess} (done : Bool) :
    Span base s accesses earlier opening since → opening.toUInt8 &&& 1 ≠ 0 →
    Told base s accesses (.reading (opening.toUInt8 >>> 1)) done
  | writing {earlier : List RawAccess} {opening : UInt32} {since : List RawAccess}
    {pointerSet : Bool} (done : Bool) :
    Span base s accesses earlier opening since → opening.toUInt8 &&& 1 = 0 →
    (pointerSet = true → ∃ access ∈ since, ∃ word, access.event? base = some (.data word)) →
    Told base s accesses (.writing (opening.toUInt8 >>> 1) pointerSet) done

variable {base : UInt64} {s : Simulator} {accesses earlier since : List RawAccess}
  {opening : UInt32} {access : RawAccess}

/-! ## One more access -/

theorem Opens.concat (opens : Opens base accesses) (hevent : access.event? base = none) :
    Opens base (accesses ++ [access]) := by
  obtain ⟨earlier, start, since, rfl, hstart, hsince⟩ := opens
  refine ⟨earlier, start, since ++ [access], by simp, hstart, fun other hmem => ?_⟩
  rcases List.mem_append.mp hmem with hmem | hmem
  · exact hsince other hmem
  · rw [List.mem_singleton.mp hmem]
    exact .inl hevent

theorem Span.concat (span : Span base s accesses earlier opening since)
    (hstart : access.event? base ≠ some .start) (hstop : access.event? base ≠ some .stop) :
    Span base s (accesses ++ [access]) earlier opening (since ++ [access]) where
  split := by rw [span.split, List.append_assoc, List.cons_append]
  opens := span.opens
  attached := span.attached
  willing := span.willing
  ongoing := by
    intro other hmem
    rcases List.mem_append.mp hmem with hmem | hmem
    · exact span.ongoing other hmem
    · rw [List.mem_singleton.mp hmem]
      exact ⟨hstart, hstop⟩

theorem Told.silent {state : BusState} {done : Bool} (told : Told base s accesses state done)
    (hevent : access.event? base = none) : Told base s (accesses ++ [access]) state done := by
  have hstart : access.event? base ≠ some .start := by rw [hevent]; nofun
  have hstop : access.event? base ≠ some .stop := by rw [hevent]; nofun
  cases told with
  | idle => exact .idle
  | awaitAddress opens => exact .awaitAddress (opens.concat hevent)
  | ignored => exact .ignored
  | reading done span hbit => exact .reading done (span.concat hstart hstop) hbit
  | writing done span hbit hdata =>
    refine .writing done (span.concat hstart hstop) hbit fun hset => ?_
    obtain ⟨other, hmem, hword⟩ := hdata hset
    exact ⟨other, List.mem_append_left _ hmem, hword⟩

/-- A data byte after accesses. -/
theorem told_data
    (told : Told base s accesses (s.afterAll accesses).state (s.afterAll accesses).done)
    (word : UInt32) :
    Told base s (accesses ++ [.write (base + dataOffset) word])
      ((s.afterAll accesses).writeData word).state
      ((s.afterAll accesses).writeData word).done := by
  have hevent := RawAccess.event?_write_data base word
  have hstart : (RawAccess.write (base + dataOffset) word).event? base ≠ some .start := by
    rw [hevent]
    nofun
  have hstop : (RawAccess.write (base + dataOffset) word).event? base ≠ some .stop := by
    rw [hevent]
    nofun
  generalize hstate : (s.afterAll accesses).state = state at told
  generalize (s.afterAll accesses).done = done at told
  cases told with
  | idle =>
    obtain ⟨hsame, hdone, -⟩ := writeData_drops (.inl hstate) word
    rw [hsame, hdone, hstate]
    exact .idle
  | ignored =>
    obtain ⟨hsame, hdone, -⟩ := writeData_drops (.inr (.inl hstate)) word
    rw [hsame, hdone, hstate]
    exact .ignored
  | awaitAddress opens =>
    obtain ⟨-, ⟨hignored, hdone⟩ | ⟨hattached, hwilling, hopened⟩⟩ := writeData_opens hstate word
    · rw [hignored, hdone]
      exact .ignored
    · have span : Span base s (accesses ++ [.write (base + dataOffset) word]) accesses word [] :=
        { split := rfl, opens, attached := hattached, willing := hwilling, ongoing := nofun }
      rw [hopened]
      split
      · rename_i hbit
        exact .writing _ span hbit nofun
      · rename_i hbit
        exact .reading _ span hbit
  | reading _ span hbit =>
    obtain ⟨hsame, hdone, -⟩ := writeData_drops (.inr (.inr ⟨_, hstate⟩)) word
    rw [hsame, hdone, hstate]
    exact .reading _ (span.concat hstart hstop) hbit
  | writing _ span hbit hdata =>
    obtain ⟨hstored, -, -⟩ := writeData_stores hstate word
    rw [hstored]
    refine .writing _ (span.concat hstart hstop) hbit fun _ => ?_
    exact ⟨_, List.mem_append_right _ List.mem_cons_self, word, hevent⟩

theorem told_concat (sound : s.Sound base)
    (told : Told base s accesses (s.afterAll accesses).state (s.afterAll accesses).done)
    (access : RawAccess) :
    Told base s (accesses ++ [access]) (s.afterAll (accesses ++ [access])).state
      (s.afterAll (accesses ++ [access])).done := by
  have hbase := (sound.afterAll accesses).base_eq
  rw [afterAll_concat]
  cases hevent : access.event? base with
  | none =>
    have silent := accessed_silent hbase hevent
    rw [silent.state, silent.done]
    exact told.silent hevent
  | some event =>
    cases event with
    | start =>
      obtain ⟨hstate, hdone, -⟩ := accessed_start hbase hevent
      rw [hstate, hdone]
      exact .awaitAddress ⟨accesses, access, [], rfl, hevent, nofun⟩
    | stop =>
      obtain ⟨hstate, hdone, -⟩ := accessed_stop hbase hevent
      rw [hstate, hdone]
      exact .idle
    | data word =>
      obtain rfl := RawAccess.event?_eq_data_iff.mp hevent
      rw [accessed_data hbase]
      exact told_data told word

/-- Whatever is accessed, the history tells the bus. -/
theorem told_afterAll (sound : s.Sound base) (hidle : s.state = .idle) (hdone : s.done = false)
    (accesses : List RawAccess) :
    Told base s accesses (s.afterAll accesses).state (s.afterAll accesses).done := by
  induction accesses using List.reverseRecOn with
  | nil =>
    show Told base s [] s.state s.done
    rw [hidle, hdone]
    exact .idle
  | append_singleton accesses access ih => exact told_concat sound ih access

/-! ## What the history tells -/

/-- A peripheral that bytes are moved to or from was named by the byte that opened the transfer. -/
theorem Told.addressed {state : BusState} {done : Bool} (told : Told base s accesses state done)
    {address : UInt8}
    (h : state = .reading address ∨ ∃ pointerSet, state = .writing address pointerSet) :
    ∃ earlier opening since, Span base s accesses earlier opening since ∧
      opening.toUInt8 >>> 1 = address := by
  cases told with
  | idle | awaitAddress | ignored => rcases h with h | ⟨_, h⟩ <;> cases h
  | reading _ span _ =>
    rcases h with h | ⟨_, h⟩
    · cases h
      exact ⟨_, _, _, span, rfl⟩
    · cases h
  | writing _ span _ _ =>
    rcases h with h | ⟨_, h⟩
    · cases h
    · cases h
      exact ⟨_, _, _, span, rfl⟩

/-- Once a peripheral stores bytes, a transfer to it goes on with its first byte behind it. -/
theorem Told.storing {state : BusState} {done : Bool} (told : Told base s accesses state done)
    {address : UInt8} (hstate : state = .writing address true) :
    ∃ earlier opening since, Span base s accesses earlier opening since ∧
      opening.toUInt8 >>> 1 = address ∧ opening.toUInt8 &&& 1 = 0 ∧
      ∃ access ∈ since, ∃ word, access.event? base = some (.data word) := by
  cases told with
  | idle | awaitAddress | ignored | reading => cases hstate
  | writing _ span hbit hdata =>
    cases hstate
    exact ⟨_, _, _, span, rfl, hbit, hdata rfl⟩

/-- A byte that was transferred belongs to a transfer. -/
theorem Told.transferred {state : BusState} (told : Told base s accesses state true) :
    ∃ earlier opening since, Span base s accesses earlier opening since := by
  cases told with
  | reading _ span _ => exact ⟨_, _, _, span⟩
  | writing _ span _ _ => exact ⟨_, _, _, span⟩

namespace Simulator

/-! ## What an access touches -/

theorem peripheral?_accessed (hbase : s.base = base) {address : UInt8}
    (hreading : s.state ≠ .reading address)
    (hwriting : ∀ pointerSet, s.state ≠ .writing address pointerSet) (access : RawAccess) :
    (s.accessed access).peripheral? address = s.peripheral? address := by
  cases hevent : access.event? base with
  | none => exact (accessed_silent hbase hevent).others address hreading
  | some event =>
    cases event with
    | start => exact peripheral?_congr (accessed_start hbase hevent).2.2 address
    | stop => exact peripheral?_congr (accessed_stop hbase hevent).2.2 address
    | data word =>
      obtain rfl := RawAccess.event?_eq_data_iff.mp hevent
      rw [accessed_data hbase]
      cases hstate : s.state with
      | awaitAddress => exact peripheral?_congr (writeData_opens hstate word).1 address
      | writing other pointerSet =>
        have hne : address ≠ other := by
          rintro rfl
          exact hwriting pointerSet hstate
        exact (writeData_stores hstate word).2.1 address hne
      | idle => exact peripheral?_congr (writeData_drops (.inl hstate) word).2.2 address
      | ignored => exact peripheral?_congr (writeData_drops (.inr (.inl hstate)) word).2.2 address
      | reading other =>
        exact peripheral?_congr (writeData_drops (.inr (.inr ⟨other, hstate⟩)) word).2.2 address

/-- Memory changes only by a data byte for a peripheral whose pointer is set. -/
theorem memory?_accessed (hbase : s.base = base) {address : UInt8} {access : RawAccess}
    (h : (∀ word, access.event? base ≠ some (.data word)) ∨ s.state ≠ .writing address true) :
    (s.accessed access).memory? address = s.memory? address := by
  have same {s' : Simulator} (hperipherals : s'.peripherals = s.peripherals) :
      s'.memory? address = s.memory? address := by
    rw [memory?, peripheral?_congr hperipherals, memory?]
  cases hevent : access.event? base with
  | none => exact (accessed_silent hbase hevent).memory address
  | some event =>
    cases event with
    | start => exact same (accessed_start hbase hevent).2.2
    | stop => exact same (accessed_stop hbase hevent).2.2
    | data word =>
      have hstoring := h.resolve_left fun h => h word hevent
      obtain rfl := RawAccess.event?_eq_data_iff.mp hevent
      rw [accessed_data hbase]
      cases hstate : s.state with
      | awaitAddress => exact same (writeData_opens hstate word).1
      | writing other pointerSet =>
        obtain ⟨-, hothers, hfirst⟩ := writeData_stores hstate word
        cases pointerSet with
        | false => exact hfirst rfl address
        | true =>
          have hne : address ≠ other := by
            rintro rfl
            exact hstoring hstate
          rw [memory?, hothers address hne, memory?]
      | idle => exact same (writeData_drops (.inl hstate) word).2.2
      | ignored => exact same (writeData_drops (.inr (.inl hstate)) word).2.2
      | reading other => exact same (writeData_drops (.inr (.inr ⟨other, hstate⟩)) word).2.2

/-! ## The byte after the opening byte -/

theorem state_of_opens (sound : s.Sound base) (opens : Opens base accesses) :
    (s.afterAll accesses).state = .awaitAddress := by
  obtain ⟨earlier, start, since, rfl, hstart, hsince⟩ := opens
  induction since using List.reverseRecOn with
  | nil =>
    rw [afterAll_concat]
    exact (accessed_start (sound.afterAll earlier).base_eq hstart).1
  | append_singleton since access ih =>
    rw [← List.cons_append, ← List.append_assoc, afterAll_concat]
    have hstate := ih fun other hmem => hsince other (List.mem_append_left _ hmem)
    have hbase := (sound.afterAll (earlier ++ start :: since)).base_eq
    rcases hsince access (List.mem_append_right _ List.mem_cons_self) with hevent | hevent
    · exact (accessed_silent hbase hevent).state.trans hstate
    · exact (accessed_start hbase hevent).1

/-- Only a data byte makes a peripheral ready to store. -/
theorem accessed_not_storing (hbase : s.base = base) {address : UInt8}
    (hstate : s.state ≠ .writing address true)
    (hevent : ∀ word, access.event? base ≠ some (.data word)) :
    (s.accessed access).state ≠ .writing address true := by
  cases hcase : access.event? base with
  | none =>
    rw [(accessed_silent hbase hcase).state]
    exact hstate
  | some event =>
    cases event with
    | start =>
      rw [(accessed_start hbase hcase).1]
      nofun
    | stop =>
      rw [(accessed_stop hbase hcase).1]
      nofun
    | data word => exact absurd hcase (hevent word)

/-- After an opening byte no peripheral is ready to store before the next byte. -/
theorem opened_not_storing (sound : s.Sound base) (opens : Opens base earlier)
    (hsince : ∀ access ∈ since, ∀ word, access.event? base ≠ some (.data word))
    (address : UInt8) :
    (s.afterAll (earlier ++ .write (base + dataOffset) opening :: since)).state ≠
      .writing address true := by
  -- Conditions may come in between, so the state is not known, only what it is not.
  induction since using List.reverseRecOn with
  | nil =>
    rw [afterAll_concat, accessed_data (sound.afterAll earlier).base_eq]
    obtain ⟨-, ⟨hignored, -⟩ | ⟨-, -, hopened⟩⟩ :=
      writeData_opens (state_of_opens sound opens) opening
    · rw [hignored]
      nofun
    · rw [hopened]
      split <;> simp
  | append_singleton since access ih =>
    rw [← List.cons_append, ← List.append_assoc, afterAll_concat]
    exact accessed_not_storing (sound.afterAll _).base_eq
      (ih fun other hmem => hsince other (List.mem_append_left _ hmem))
      (hsince access (List.mem_append_right _ List.mem_cons_self))

/-! ## Idle states -/

/-- An idle bus has no byte just transferred. -/
def Settled (s : Simulator) : Prop := s.state = .idle → s.done = false

theorem Settled.accessed (hbase : s.base = base) (h : s.Settled) (access : RawAccess) :
    (s.accessed access).Settled := by
  intro hidle
  cases hevent : access.event? base with
  | none =>
    have silent := accessed_silent hbase hevent
    rw [silent.done]
    exact h (silent.state ▸ hidle)
  | some event =>
    cases event with
    | start => exact (accessed_start hbase hevent).2.1
    | stop => exact (accessed_stop hbase hevent).2.1
    | data word =>
      obtain rfl := RawAccess.event?_eq_data_iff.mp hevent
      rw [accessed_data hbase] at hidle ⊢
      cases hstate : s.state with
      | awaitAddress =>
        obtain ⟨-, ⟨hignored, -⟩ | ⟨-, -, hopened⟩⟩ := writeData_opens hstate word
        · rw [hignored] at hidle
          cases hidle
        · rw [hopened] at hidle
          split at hidle <;> cases hidle
      | writing address pointerSet =>
        rw [(writeData_stores hstate word).1] at hidle
        cases hidle
      | idle => exact (writeData_drops (.inl hstate) word).2.1
      | ignored => exact (writeData_drops (.inr (.inl hstate)) word).2.1
      | reading address => exact (writeData_drops (.inr (.inr ⟨address, hstate⟩)) word).2.1

theorem Settled.onSimulator (h : s.Settled) (handling : Handling) :
    (handling.onSimulator s).Settled := by
  cases handling with
  | load address offset bytes =>
    simp only [Handling.onSimulator, load]
    split <;> exact h
  | _ => exact h

theorem Reachable.settled (h : Reachable base s) : s.Settled := by
  induction h with
  | create => exact fun _ => rfl
  | @handle s handling reachable ih =>
    cases handling with
    | read address => exact ih.accessed reachable.sound.base_eq (.read address)
    | write address word => exact ih.accessed reachable.sound.base_eq (.write address word)
    | _ => exact ih.onSimulator _

/-! ## Peripherals that are not addressed -/

/-- A peripheral that no opening byte names is as it was. -/
theorem peripheral?_afterAll (sound : s.Sound base) (hidle : s.state = .idle)
    (hdone : s.done = false) {address : UInt8}
    (h : ∀ before (word : UInt32) after,
      accesses = before ++ .write (base + dataOffset) word :: after →
      Opens base before → word.toUInt8 >>> 1 ≠ address) :
    (s.afterAll accesses).peripheral? address = s.peripheral? address := by
  induction accesses using List.reverseRecOn with
  | nil => rfl
  | append_singleton accesses access ih =>
    have hearlier : ∀ before (word : UInt32) after,
        accesses = before ++ .write (base + dataOffset) word :: after →
        Opens base before → word.toUInt8 >>> 1 ≠ address := by
      rintro before word after rfl
      exact h before word (after ++ [access]) (by simp)
    have told := told_afterAll sound hidle hdone accesses
    -- An access that touches the peripheral is part of a transfer that names it.
    have huntouched : ¬((s.afterAll accesses).state = .reading address ∨
        ∃ pointerSet, (s.afterAll accesses).state = .writing address pointerSet) := by
      intro htouched
      obtain ⟨earlier, opening, since, span, hnamed⟩ := told.addressed htouched
      exact hearlier earlier opening since span.split span.opens hnamed
    rw [afterAll_concat, peripheral?_accessed (sound.afterAll accesses).base_eq
      (fun hreading => huntouched (.inl hreading))
      (fun pointerSet hwriting => huntouched (.inr ⟨pointerSet, hwriting⟩)), ih hearlier]

theorem done_readStatus (hbase : s.base = base) :
    (StatusFlags.ofWord (registers.read (base + statusOffset) s).1).done =
      (s.done && !s.stalled) := by
  have hread : registers.read (base + statusOffset) s = s.readStatus := by
    simp only [registers, hbase, base_add_sub]
    rfl
  rw [hread]
  show (StatusFlags.ofWord s.flags.toWord).done = _
  rw [ofWord_toWord]
  rfl

/-- **Peripherals that are not addressed are not disturbed.** On a simulator in any reachable
state with an idle bus, which has no byte just transferred, and after any accesses to any
addresses: a peripheral that no opening byte among them names is as it was, its pointer included.
One more access changes the memory of a peripheral only if it is a data byte in a transfer that an
opening byte with this address and without the read bit opened, and if it is not the first data
byte there; the first data byte after an opening byte changes no memory at all, whatever came in
between. And the status reports Done only if an attached peripheral acknowledged an opening byte
after which there was neither a START nor a STOP. -/
theorem peripherals_undisturbed (reachable : Reachable base s) (hidle : s.state = .idle)
    (accesses : List RawAccess) :
    s.done = false ∧
    (∀ address, (∀ before (word : UInt32) after,
        accesses = before ++ .write (base + dataOffset) word :: after →
        Opens base before → word.toUInt8 >>> 1 ≠ address) →
      (s.afterAll accesses).peripheral? address = s.peripheral? address) ∧
    (∀ access address,
      ((s.afterAll accesses).accessed access).memory? address ≠
        (s.afterAll accesses).memory? address →
      (∃ word, access = .write (base + dataOffset) word) ∧
      ∃ earlier opening since, Span base s accesses earlier opening since ∧
        opening.toUInt8 >>> 1 = address ∧ opening.toUInt8 &&& 1 = 0 ∧
        ∃ word, .write (base + dataOffset) word ∈ since) ∧
    (∀ before opening between,
      accesses = before ++ .write (base + dataOffset) opening :: between → Opens base before →
      (∀ word, .write (base + dataOffset) word ∉ between) →
      ∀ access address, ((s.afterAll accesses).accessed access).memory? address =
        (s.afterAll accesses).memory? address) ∧
    ((StatusFlags.ofWord
        (registers.read (base + statusOffset) (s.afterAll accesses)).1).done = true →
      ∃ earlier opening since, Span base s accesses earlier opening since) := by
  have sound := reachable.sound
  have hdone := reachable.settled hidle
  have hbase := (sound.afterAll accesses).base_eq
  have told := told_afterAll sound hidle hdone accesses
  refine ⟨hdone, fun address h => peripheral?_afterAll sound hidle hdone h,
    fun access address hchanged => ?_, ?_, fun hreported => ?_⟩
  · by_cases hdata : ∃ word, access.event? base = some (.data word)
    · have hstoring : (s.afterAll accesses).state = .writing address true := by
        by_contra hstate
        exact hchanged (memory?_accessed hbase (.inr hstate))
      obtain ⟨word, hevent⟩ := hdata
      obtain ⟨earlier, opening, since, span, hnamed, hbit, other, hmem, word', hword'⟩ :=
        told.storing hstoring
      obtain rfl := RawAccess.event?_eq_data_iff.mp hword'
      exact ⟨⟨word, RawAccess.event?_eq_data_iff.mp hevent⟩, earlier, opening, since, span, hnamed,
        hbit, word', hmem⟩
    · exact absurd (memory?_accessed hbase (.inl fun word hevent => hdata ⟨word, hevent⟩)) hchanged
  · rintro before opening between rfl opens hbetween access address
    refine memory?_accessed hbase (.inr (opened_not_storing sound opens ?_ address))
    intro other hmem word hevent
    rw [RawAccess.event?_eq_data_iff.mp hevent] at hmem
    exact hbetween word hmem
  · rw [done_readStatus hbase, Bool.and_eq_true] at hreported
    rw [hreported.1] at told
    exact told.transferred

/-- A byte is stored at one of two peripherals, and the other one is as it was. -/
theorem peripherals_undisturbed_neighbour :
    let sim := (Handling.attach 0x51).applied ((Handling.attach 0x50).applied (create defaultBase))
    let control := defaultBase + controlOffset
    let data := defaultBase + dataOffset
    let accesses : List RawAccess :=
      [.write control startBit, .write data 0xA2, .write data 0x10, .write data 7,
        .read (defaultBase + statusOffset), .write control stopBit]
    Reachable defaultBase sim ∧ sim.state = .idle ∧
      (sim.afterAll accesses).peripheral? 0x50 = sim.peripheral? 0x50 := by
  intro sim control data accesses
  have reachable : Reachable defaultBase sim :=
    .handle (.attach 0x51) (.handle (.attach 0x50) .create)
  obtain ⟨-, hothers, -⟩ := peripherals_undisturbed reachable rfl accesses
  refine ⟨reachable, rfl, hothers 0x50 fun before word after hsplit _ => ?_⟩
  have hmem : RawAccess.write data word ∈ accesses := by
    rw [hsplit]
    exact List.mem_append_right _ List.mem_cons_self
  have hdata : data ≠ control := (control_ne_data defaultBase).symm
  simp only [accesses, List.mem_cons, RawAccess.write.injEq, hdata, false_and, true_and,
    List.not_mem_nil, or_false, false_or, reduceCtorEq] at hmem
  rcases hmem with rfl | rfl | rfl <;> decide

end Simulator

end Firmware.I2c
