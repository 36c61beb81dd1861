/-
  Firmware: the byte handshake of a transaction, on any hardware. The opening byte follows START;
  every other access to the data register follows a look at the status that found the byte before
  it transferred. What is written are the opening byte and the payload, up to a byte that was not
  transferred in time, and what is read fills the buffer from its start.
-/
import Firmware.Proofs.I2c.TransferAccesses
import Mathlib.Data.List.Chain

namespace Firmware.I2c

/-! ## Before a data access -/

variable {base : UInt64} {looks accesses : List Access}

theorem IsLook.address_ne {access : Access} (h : IsLook base access) :
    access.address ≠ base + dataOffset := by
  cases access with
  | read address word => exact (show address = _ from h) ▸ (data_ne_status base).symm
  | write address word => exact h.elim

theorem IsDone.isLook {access : Access} (h : IsDone base access) : IsLook base access := by
  cases access with
  | read address word => exact h.1
  | write address word => exact h.elim

theorem IsDone.eq_read {access : Access} (h : IsDone base access) :
    ∃ status, access = .read (base + statusOffset) status ∧
      (StatusFlags.ofWord status).done = true := by
  cases access with
  | read address word =>
    obtain ⟨rfl, hdone⟩ := h
    exact ⟨word, rfl, hdone⟩
  | write address word => exact h.elim

theorem SeenDone.isLook (h : SeenDone base looks) : ∀ access ∈ looks, IsLook base access := by
  obtain ⟨earlier, last, rfl, hearlier, hlast⟩ := h
  intro access hmem
  rcases List.mem_append.mp hmem with h | h
  · exact hearlier access h
  · rw [List.mem_singleton.mp h]
    exact hlast.isLook

/-- Neighbouring accesses, of which the second is to the data register only if the first found
Done. -/
def DoneBefore (base : UInt64) (previous access : Access) : Prop :=
  access.address = base + dataOffset → IsDone base previous

theorem isChain_cons_look {previous : Access}
    (hhead : ∀ access ∈ accesses.head?, IsLook base access)
    (h : accesses.IsChain (DoneBefore base)) : (previous :: accesses).IsChain (DoneBefore base) :=
  List.isChain_cons.mpr ⟨fun access hmem hdata => absurd hdata (hhead access hmem).address_ne, h⟩

theorem isChain_looks (h : ∀ access ∈ looks, IsLook base access) :
    looks.IsChain (DoneBefore base) := by
  induction looks with
  | nil => exact .nil
  | cons look rest ih =>
    refine isChain_cons_look (fun access hmem => ?_) (ih fun access hmem => ?_)
    · exact h access (List.mem_cons_of_mem _ (List.mem_of_mem_head? hmem))
    · exact h access (List.mem_cons_of_mem _ hmem)

/-- What follows looks that found Done may begin with an access to the data register. -/
theorem SeenDone.isChain (h : SeenDone base looks) (hrest : accesses.IsChain (DoneBefore base)) :
    (looks ++ accesses).IsChain (DoneBefore base) := by
  refine List.isChain_append.mpr ⟨isChain_looks h.isLook, hrest, fun last hlast access _ _ => ?_⟩
  obtain ⟨earlier, done, rfl, -, hdone⟩ := h
  rw [List.getLast?_concat, Option.mem_some_iff] at hlast
  exact hlast ▸ hdone

theorem SeenDone.head (h : SeenDone base looks) :
    ∀ access ∈ (looks ++ accesses).head?, IsLook base access := by
  intro access hmem
  have hlook := h.isLook
  obtain ⟨earlier, last, rfl, -, -⟩ := h
  refine hlook access (List.mem_of_mem_head? ?_)
  rw [List.append_assoc, List.head?_append] at hmem
  rw [List.head?_append]
  exact hmem

theorem Sent.isChain {bytes : List UInt8} {finished : Bool}
    (h : Sent base bytes finished accesses) :
    accesses.IsChain (DoneBefore base) := by
  induction h with
  | nil => exact .nil
  | cut byte rest hlooks =>
    exact isChain_cons_look (fun access hmem => hlooks access (List.mem_of_mem_head? hmem))
      (isChain_looks hlooks)
  | next byte hlooks _ ih => exact isChain_cons_look hlooks.head (hlooks.isChain ih)

theorem Filled.head {buffer filled : List UInt8} {finished : Bool}
    (h : Filled base buffer finished filled accesses) :
    ∀ access ∈ accesses.head?, IsLook base access := by
  cases h with
  | nil => exact nofun
  | cut old rest hlooks => exact fun access hmem => hlooks access (List.mem_of_mem_head? hmem)
  | next old word hlooks _ => exact hlooks.head

theorem Filled.isChain {buffer filled : List UInt8} {finished : Bool}
    (h : Filled base buffer finished filled accesses) : accesses.IsChain (DoneBefore base) := by
  induction h with
  | nil => exact .nil
  | cut old rest hlooks => exact isChain_looks hlooks
  | next old word hlooks hrest ih => exact hlooks.isChain (isChain_cons_look hrest.head ih)

/-- A transfer begins with the opening byte, and every other access to the data register follows a
look that found Done. -/
theorem Transferred.isChain {opening : UInt8} {payload left : Payload} {finished : Bool}
    (h : Transferred base opening payload finished left accesses) :
    accesses.IsChain (DoneBefore base) ∧
      accesses.head? = some (.write (base + dataOffset) opening.toUInt32) := by
  cases h with
  | unopened _ hopening =>
    refine ⟨hopening.isChain, ?_⟩
    cases hopening with
    | cut => rfl
    | next => rfl
  | sent hsent =>
    refine ⟨hsent.isChain, ?_⟩
    cases hsent with
    | cut => rfl
    | next => rfl
  | filled hopening hfilled =>
    cases hopening with
    | next byte hlooks hrest =>
      cases hrest
      rw [List.append_nil, List.cons_append]
      exact ⟨isChain_cons_look hlooks.head (hlooks.isChain hfilled.isChain), rfl⟩

/-! ## The words of a transfer -/

theorem wordsWritten_looks (h : ∀ access ∈ looks, IsLook base access) :
    wordsWritten (base + dataOffset) looks = [] :=
  wordsWritten_eq_nil fun access hmem => (h access hmem).address_ne

theorem wordsRead_looks (h : ∀ access ∈ looks, IsLook base access) :
    wordsRead (base + dataOffset) looks = [] :=
  wordsRead_eq_nil fun access hmem => (h access hmem).address_ne

/-- What is written are the bytes, up to the one that was not transferred in time. -/
theorem Sent.written {bytes : List UInt8} {finished : Bool}
    (h : Sent base bytes finished accesses) :
    wordsWritten (base + dataOffset) accesses <+: bytes.map UInt8.toUInt32 ∧
      (finished = true → wordsWritten (base + dataOffset) accesses = bytes.map UInt8.toUInt32) ∧
      wordsRead (base + dataOffset) accesses = [] := by
  induction h with
  | nil => exact ⟨⟨_, rfl⟩, fun _ => rfl, rfl⟩
  | cut byte rest hlooks =>
    rw [wordsWritten_write, wordsRead_write, wordsWritten_looks hlooks, wordsRead_looks hlooks,
      List.map_cons, List.cons_prefix_cons]
    exact ⟨⟨rfl, List.nil_prefix⟩, nofun, rfl⟩
  | next byte hlooks _ ih =>
    obtain ⟨hbegins, hall, hread⟩ := ih
    rw [wordsWritten_write, wordsRead_write, wordsWritten_append, wordsRead_append,
      wordsWritten_looks hlooks.isLook, wordsRead_looks hlooks.isLook, List.map_cons,
      List.cons_prefix_cons, List.nil_append, List.nil_append]
    exact ⟨⟨rfl, hbegins⟩, fun hfinished => by rw [hall hfinished], hread⟩

/-- What is read lies at the start of the buffer, and the rest of it is as it was. -/
theorem Filled.words {buffer filled : List UInt8} {finished : Bool}
    (h : Filled base buffer finished filled accesses) :
    wordsWritten (base + dataOffset) accesses = [] ∧
      let received := (wordsRead (base + dataOffset) accesses).map UInt32.toUInt8
      filled = received ++ buffer.drop received.length ∧ received.length ≤ buffer.length ∧
        (finished = true → received.length = buffer.length) := by
  induction h with
  | nil => exact ⟨rfl, rfl, Nat.le_refl 0, fun _ => rfl⟩
  | cut old rest hlooks =>
    rw [wordsWritten_looks hlooks, wordsRead_looks hlooks]
    exact ⟨rfl, rfl, Nat.zero_le _, nofun⟩
  | next old word hlooks _ ih =>
    obtain ⟨hwritten, hfilled, hle, hall⟩ := ih
    rw [wordsWritten_append, wordsRead_append, wordsWritten_looks hlooks.isLook,
      wordsRead_looks hlooks.isLook, wordsWritten_read, wordsRead_read, hwritten]
    dsimp only at hfilled hle hall ⊢
    rw [List.nil_append, List.nil_append, List.map_cons, List.length_cons, List.drop_succ_cons,
      List.cons_append, List.length_cons, ← hfilled]
    exact ⟨rfl, rfl, Nat.succ_le_succ hle, fun hfinished => by rw [hall hfinished]⟩

/-- The payload with bytes stored at the start of its buffer. -/
def Payload.receiving : Payload → List UInt8 → Payload
  | .write bytes, _ => .write bytes
  | .read buffer, received => .read (received ++ buffer.drop received.length)

theorem Payload.receiving_nil (payload : Payload) : payload.receiving [] = payload := by
  cases payload <;> rfl

theorem Transferred.words {opening : UInt8} {payload left : Payload} {finished : Bool}
    (h : Transferred base opening payload finished left accesses) :
    let sent := (opening :: payload.sent).map UInt8.toUInt32
    let written := wordsWritten (base + dataOffset) accesses
    let received := (wordsRead (base + dataOffset) accesses).map UInt32.toUInt8
    written <+: sent ∧ (finished = true → written = sent) ∧
      left = payload.receiving received ∧ received.length ≤ payload.buffer.length ∧
      (finished = true → received.length = payload.buffer.length) := by
  cases h with
  | unopened _ hopening =>
    obtain ⟨hbegins, -, hread⟩ := hopening.written
    dsimp only
    rw [hread, List.map_nil, Payload.receiving_nil]
    refine ⟨hbegins.trans ?_, nofun, rfl, Nat.zero_le _, nofun⟩
    rw [List.map_cons, List.map_cons, List.cons_prefix_cons]
    exact ⟨rfl, List.nil_prefix⟩
  | sent hsent =>
    obtain ⟨hbegins, hall, hread⟩ := hsent.written
    dsimp only
    rw [hread]
    exact ⟨hbegins, hall, rfl, Nat.le_refl 0, fun _ => rfl⟩
  | filled hopening hfilled =>
    obtain ⟨-, hall, hread⟩ := hopening.written
    obtain ⟨hwritten, hleft, hle, hreceived⟩ := hfilled.words
    dsimp only
    rw [wordsWritten_append, wordsRead_append, hread, hwritten, hall rfl, List.append_nil,
      List.nil_append]
    exact ⟨List.prefix_rfl, fun _ => rfl, congrArg Payload.read hleft, hle, hreceived⟩

/-! ## After a data write -/

/-- An entry that a list does not have lies behind it. -/
theorem split_behind {α : Type} {front rest before after : List α} {a : α} (ha : a ∉ front)
    (h : front ++ rest = before ++ a :: after) :
    ∃ middle, before = front ++ middle ∧ rest = middle ++ a :: after := by
  rcases List.append_eq_append_iff.mp h with ⟨middle, hbefore, hrest⟩ | ⟨middle, hfront, hrest⟩
  · exact ⟨middle, hbefore, hrest⟩
  · cases middle with
    | nil => exact ⟨[], by rw [hfront]; simp, hrest.symm⟩
    | cons b middle =>
      obtain ⟨rfl, -⟩ := List.cons.inj hrest
      exact absurd (hfront ▸ List.mem_append_right before List.mem_cons_self) ha

/-- An entry that a list does not have lies in front of it. -/
theorem split_before {α : Type} {front rest before after : List α} {a : α} (ha : a ∉ rest)
    (h : front ++ rest = before ++ a :: after) :
    ∃ middle, after = middle ++ rest ∧ front = before ++ a :: middle := by
  rcases List.append_eq_append_iff.mp h with ⟨middle, hbefore, hrest⟩ | ⟨middle, hfront, hrest⟩
  · exact absurd (hrest ▸ List.mem_append_right middle List.mem_cons_self) ha
  · cases middle with
    | nil => exact absurd (List.nil_append rest ▸ hrest ▸ List.mem_cons_self) ha
    | cons b middle =>
      obtain ⟨rfl, hafter⟩ := List.cons.inj hrest
      exact ⟨middle, hafter, hfront⟩

theorem not_mem_looks {access : Access} (hdata : access.address = base + dataOffset)
    (h : ∀ access ∈ looks, IsLook base access) : access ∉ looks :=
  fun hmem => (h access hmem).address_ne hdata

/-- Where all bytes were sent in time, Done was found after each of them, before the next one. -/
theorem Sent.seenDone {bytes : List UInt8} (h : Sent base bytes true accesses)
    {before after : List Access} {word : UInt32}
    (hsplit : accesses = before ++ .write (base + dataOffset) word :: after) :
    ∃ looks rest, after = looks ++ rest ∧ SeenDone base looks := by
  generalize hfinished : true = finished at h
  induction h generalizing before with
  | nil => simp at hsplit
  | cut => cases hfinished
  | @next byte rest looks accesses finished hlooks hrest ih =>
    cases before with
    | nil =>
      obtain ⟨-, rfl⟩ := List.cons.inj hsplit
      exact ⟨looks, accesses, rfl, hlooks⟩
    | cons first before =>
      obtain ⟨-, hsplit⟩ := List.cons.inj hsplit
      obtain ⟨middle, -, hsplit⟩ := split_behind (not_mem_looks rfl hlooks.isLook) hsplit
      exact ih hsplit hfinished

theorem Filled.not_written {buffer filled : List UInt8} {finished : Bool} {word : UInt32}
    (h : Filled base buffer finished filled accesses) :
    .write (base + dataOffset) word ∉ accesses := by
  intro hmem
  have hwritten : word ∈ wordsWritten (base + dataOffset) accesses :=
    List.mem_filterMap.mpr ⟨_, hmem, if_pos rfl⟩
  rw [h.words.1] at hwritten
  cases hwritten

/-- Where a transfer finished in time, Done was found after every byte that it wrote. -/
theorem Transferred.seenDone {opening : UInt8} {payload left : Payload}
    (h : Transferred base opening payload true left accesses)
    {before after : List Access} {word : UInt32}
    (hsplit : accesses = before ++ .write (base + dataOffset) word :: after) :
    ∃ looks rest, after = looks ++ rest ∧ SeenDone base looks := by
  cases h with
  | sent hsent => exact hsent.seenDone hsplit
  | filled hopening hfilled =>
    obtain ⟨middle, rfl, hfirst⟩ := split_before hfilled.not_written hsplit
    obtain ⟨looks, rest, rfl, hdone⟩ := hopening.seenDone hfirst
    exact ⟨looks, _, List.append_assoc looks rest _, hdone⟩

/-! ## Between START and STOP -/

theorem address_ne_of_mem_opened {control : UInt32} (h : ∀ access ∈ looks, IsLook base access) :
    ∀ access ∈ opened base looks control, access.address ≠ base + dataOffset := by
  intro access hmem
  simp only [opened, List.mem_append, List.mem_cons, List.not_mem_nil, or_false] at hmem
  rcases hmem with hlook | rfl | rfl
  · exact (h access hlook).address_ne
  · exact control_ne_data base
  · exact control_ne_data base

theorem address_ne_of_mem_closed {control : UInt32} :
    ∀ access ∈ closed base control, access.address ≠ base + dataOffset := by
  intro access hmem
  simp only [closed, List.mem_cons, List.not_mem_nil, or_false] at hmem
  rcases hmem with rfl | rfl
  · exact control_ne_data base
  · exact control_ne_data base

section

variable {first last : UInt32} {transfer before after : List Access} {access : Access}

/-- An access to the data register lies in the transfer. -/
theorem split_transfer (hlooks : ∀ access ∈ looks, IsLook base access)
    (hdata : access.address = base + dataOffset)
    (hsplit : opened base looks first ++ (transfer ++ closed base last) =
      before ++ access :: after) :
    ∃ middle rest, transfer = middle ++ access :: rest ∧
      before = opened base looks first ++ middle ∧ after = rest ++ closed base last := by
  have hfront : access ∉ opened base looks first :=
    fun hmem => address_ne_of_mem_opened hlooks access hmem hdata
  have hback : access ∉ closed base last := fun hmem => address_ne_of_mem_closed access hmem hdata
  obtain ⟨middle, hbefore, hrest⟩ := split_behind hfront hsplit
  obtain ⟨rest, hafter, htransfer⟩ := split_before hback hrest
  exact ⟨middle, rest, htransfer, hbefore, hafter⟩

theorem Transferred.preceded {opening : UInt8} {payload left : Payload} {finished : Bool}
    (h : Transferred base opening payload finished left transfer)
    (hlooks : ∀ access ∈ looks, IsLook base access) (hdata : access.address = base + dataOffset)
    (hsplit : opened base looks first ++ (transfer ++ closed base last) =
      before ++ access :: after) :
    (access = .write (base + dataOffset) opening.toUInt32 ∧
      (∀ earlier ∈ before, earlier.address ≠ base + dataOffset) ∧
      ∃ control, before.getLast? = some (.write (base + controlOffset) (control ||| startBit))) ∨
    ∃ status, before.getLast? = some (.read (base + statusOffset) status) ∧
      (StatusFlags.ofWord status).done = true := by
  obtain ⟨hchain, hhead⟩ := h.isChain
  obtain ⟨middle, rest, rfl, rfl, -⟩ := split_transfer hlooks hdata hsplit
  rcases List.eq_nil_or_concat' middle with rfl | ⟨earlier, previous, rfl⟩
  · refine .inl ⟨Option.some.inj hhead, ?_, first, ?_⟩
    · rw [List.append_nil]
      exact address_ne_of_mem_opened hlooks
    · simp [opened]
  · rw [List.append_assoc, List.singleton_append, List.isChain_append_cons_cons] at hchain
    obtain ⟨status, rfl, hdone⟩ := (hchain.2.1 hdata).eq_read
    refine .inr ⟨status, ?_, hdone⟩
    rw [← List.append_assoc, List.getLast?_concat]

theorem wordsWritten_between (hlooks : ∀ access ∈ looks, IsLook base access) :
    wordsWritten (base + dataOffset) (opened base looks first ++ (transfer ++ closed base last)) =
      wordsWritten (base + dataOffset) transfer := by
  rw [wordsWritten_append, wordsWritten_append,
    wordsWritten_eq_nil (address_ne_of_mem_opened hlooks),
    wordsWritten_eq_nil address_ne_of_mem_closed, List.nil_append, List.append_nil]

theorem wordsRead_between (hlooks : ∀ access ∈ looks, IsLook base access) :
    wordsRead (base + dataOffset) (opened base looks first ++ (transfer ++ closed base last)) =
      wordsRead (base + dataOffset) transfer := by
  rw [wordsRead_append, wordsRead_append, wordsRead_eq_nil (address_ne_of_mem_opened hlooks),
    wordsRead_eq_nil address_ne_of_mem_closed, List.nil_append, List.append_nil]

theorem Transferred.followed {opening : UInt8} {payload left : Payload} {word : UInt32}
    (h : Transferred base opening payload true left transfer)
    (hlooks : ∀ access ∈ looks, IsLook base access)
    (hsplit : opened base looks first ++ (transfer ++ closed base last) =
      before ++ .write (base + dataOffset) word :: after) :
    ∃ looks status rest, after = looks ++ .read (base + statusOffset) status :: rest ∧
      (∀ access ∈ looks, IsLook base access) ∧ (StatusFlags.ofWord status).done = true := by
  obtain ⟨middle, rest, htransfer, -, rfl⟩ := split_transfer hlooks rfl hsplit
  obtain ⟨looks, rest, rfl, earlier, done, rfl, hearlier, hdone⟩ := h.seenDone htransfer
  obtain ⟨status, rfl, hstatus⟩ := hdone.eq_read
  refine ⟨earlier, status, rest ++ closed base last, ?_, hearlier, hstatus⟩
  simp only [List.append_assoc, List.cons_append, List.nil_append]

end

/-! ## Whole transactions -/

namespace Controller

/-- **Bytes are handed over one at a time.** On any hardware, with any relax hook, of the accesses
of a transaction to the data register the first is the write of the opening byte right after the
setting of START, and every other one comes right after a look at the status that found Done.
What is written is a beginning of the opening byte and the payload, and all of it on success. The
words that are read fill the buffer from its start with their lowest bytes, all of it on success,
and what lies behind them stays. On success Done was found after every byte that was written. -/
theorem bytes_handshaken {σ : Type} (hardware : Hardware σ) (c : Controller σ) (t : Transaction) :
    let base := c.config.baseAddress
    let result := (c.execute hardware t).1
    let payload := (c.execute hardware t).2.1
    let recorded := c.recorded.execute hardware.recorded t
    let accesses := recorded.2.2.bus.accesses
    let sent := (t.opening :: t.payload.sent).map UInt8.toUInt32
    let written := wordsWritten (base + dataOffset) accesses
    let received := (wordsRead (base + dataOffset) accesses).map UInt32.toUInt8
    (recorded.1 = result ∧ recorded.2.1 = payload ∧
      recorded.2.2.bus.state = (c.execute hardware t).2.2.bus) ∧
    (∀ before access after, accesses = before ++ access :: after →
      access.address = base + dataOffset →
      (access = .write (base + dataOffset) t.opening.toUInt32 ∧
        (∀ earlier ∈ before, earlier.address ≠ base + dataOffset) ∧
        ∃ control, before.getLast? = some (.write (base + controlOffset) (control ||| startBit))) ∨
      ∃ status, before.getLast? = some (.read (base + statusOffset) status) ∧
        (StatusFlags.ofWord status).done = true) ∧
    (written <+: sent ∧ (result = .ok () → written = sent)) ∧
    (payload = t.payload.receiving received ∧ received.length ≤ t.payload.buffer.length ∧
      (result = .ok () → received.length = t.payload.buffer.length)) ∧
    (result = .ok () → ∀ before word after,
      accesses = before ++ .write (base + dataOffset) word :: after →
      ∃ looks status rest, after = looks ++ .read (base + statusOffset) status :: rest ∧
        (∀ access ∈ looks, IsLook base access) ∧ (StatusFlags.ofWord status).done = true) := by
  have hways := execute_transferred hardware c t
  dsimp only at hways ⊢
  refine ⟨execute_recorded hardware c t, ?_⟩
  generalize (c.recorded.execute hardware.recorded t).2.2.bus.accesses = accesses at hways ⊢
  generalize (c.execute hardware t).1 = result at hways ⊢
  generalize (c.execute hardware t).2.1 = payload at hways ⊢
  rcases hways with ⟨looks, rfl, rfl, hlooks, rfl⟩ |
    ⟨outcome, looks, first, transfer, last, rfl, hlooks, htransfer, rfl⟩
  · rw [wordsWritten_looks hlooks, wordsRead_looks hlooks, List.map_nil, Payload.receiving_nil]
    refine ⟨fun before access after hsplit hdata => ?_, ⟨⟨_, rfl⟩, nofun⟩,
      ⟨rfl, Nat.zero_le _, nofun⟩, nofun⟩
    have hmem : access ∈ accesses := hsplit ▸ List.mem_append_right _ List.mem_cons_self
    exact absurd hdata (hlooks access hmem).address_ne
  · have hfinished (h : outcome.answer = .ok ()) : outcome.isOk = true := by
      cases outcome with
      | ok _ => rfl
      | error phase => cases h
    obtain ⟨hbegins, hall, hleft, hle, hfull⟩ := htransfer.words
    rw [wordsWritten_between hlooks, wordsRead_between hlooks]
    refine ⟨fun before access after hsplit hdata => htransfer.preceded hlooks hdata hsplit,
      ⟨hbegins, fun h => hall (hfinished h)⟩, ⟨hleft, hle, fun h => hfull (hfinished h)⟩,
      fun h before word after hsplit => ?_⟩
    exact (hfinished h ▸ htransfer).followed hlooks hsplit

/-- On hardware that always shows Done, a write of two bytes and a read of two bytes with one look
at the status per wait. -/
theorem bytes_handshaken_write_read :
    let hardware : Hardware Unit :=
      { read := fun _ s => (doneBit, s), write := fun _ _ s => s, relax := id }
    let c := Controller.create {} ()
    let data := c.config.baseAddress + dataOffset
    let write : Transaction :=
      { address := ⟨0x50, by decide⟩, payload := .write [0x10, 7], budget := 1 }
    let read : Transaction :=
      { address := ⟨0x50, by decide⟩, payload := .read [0, 0], budget := 1 }
    (c.execute hardware write).1 = .ok () ∧
    wordsWritten data (c.recorded.execute hardware.recorded write).2.2.bus.accesses =
      [0xA0, 0x10, 7] ∧
    (wordsRead data (c.recorded.execute hardware.recorded read).2.2.bus.accesses).length = 2 := by
  intro hardware c data write read
  have hwrite : (c.execute hardware write).1 = .ok () := rfl
  have hread : (c.execute hardware read).1 = .ok () := rfl
  obtain ⟨-, -, ⟨-, hsent⟩, -, -⟩ := bytes_handshaken hardware c write
  obtain ⟨-, -, -, ⟨-, -, hreceived⟩, -⟩ := bytes_handshaken hardware c read
  refine ⟨hwrite, hsent hwrite, ?_⟩
  rw [← List.length_map]
  exact hreceived hread

end Controller

end Firmware.I2c
