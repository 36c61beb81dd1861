/-
  Firmware: shutdown. In its section every registered line is masked and removed, so all that
  becomes of the controller is that it is captured, masked line by line and written back; a line
  that it does not route changes nothing. The main result, `shutdown_masks_registered`, says
  so of every platform that a run can come to, over a controller in memory and over a PC.
-/
import Firmware.Platform.Operation
import Firmware.Proofs.Interrupts.Controllers

namespace Firmware

variable {κ η τ α : Type} [InterruptController κ]

/-! ## Masking lines -/

/-- The controller after lines were masked one after the other. -/
def maskAll (lines : List Nat) (c : κ) : κ :=
  lines.foldl (fun c line => (InterruptController.setMasked line true c).2) c

theorem maskAll_bits [MaskBits κ] (lines : List Nat) {c : κ} (ready : MaskBits.Ready c) :
    MaskBits.Ready (maskAll lines c) ∧ MaskBits.lines (maskAll lines c) = MaskBits.lines c ∧
    ∀ line < MaskBits.lines c, MaskBits.masked (maskAll lines c) line =
      (decide (line ∈ lines) || MaskBits.masked c line) := by
  induction lines generalizing c with
  | nil => exact ⟨ready, rfl, fun line h => by simp [maskAll]⟩
  | cons first rest ih =>
    obtain ⟨next, hset, hnext, hlines, hmasks⟩ := MaskBits.setMasked_eq ready first true
    have hfold : maskAll (first :: rest) c = maskAll rest next := by
      simp only [maskAll, List.foldl_cons, hset]
    obtain ⟨hready, hlines', hrest⟩ := ih hnext
    rw [hfold]
    refine ⟨hready, hlines'.trans hlines, fun line h => ?_⟩
    rw [hrest line (hlines ▸ h), hmasks line h]
    by_cases same : first = line
    · simp [same]
    · simp [same, Ne.symm same]

theorem maskAll_counted (lines : List Nat) (c : Counted κ) :
    maskAll lines c = { c with controller := maskAll lines c.controller } := by
  induction lines generalizing c with
  | nil => rfl
  | cons first rest ih => exact ih _

theorem flags_maskAll (lines : List Nat) (c : PcController) :
    (maskAll lines c).flags = c.flags := by
  induction lines generalizing c with
  | nil => rfl
  | cons first rest ih => exact (ih _).trans (c.setMasked_flags first true)

/-- Of the lines that are masked at a PC each routed one is written to its mask port, in order. -/
theorem writes_maskAll (lines : List Nat) {c : PcController} (latches : c.ports.Latches) :
    ∃ added, (maskAll lines c).ports.writes = c.ports.writes ++ added ∧
      added.map Prod.fst =
        (lines.filter (· < MaskPair.routedLines)).map MaskPair.maskPort := by
  induction lines generalizing c with
  | nil => exact ⟨[], (List.append_nil _).symm, rfl⟩
  | cons first rest ih =>
    by_cases h : first < MaskPair.routedLines
    · have hset := PcController.setMasked_of_ports (MaskPair.setMasked_of_lt latches h true)
      let byte := MaskPair.withMask first true (c.ports.latched (MaskPair.maskPort first))
      obtain ⟨added, hadded, hports⟩ :=
        @ih { c with ports := c.ports.output (MaskPair.maskPort first) byte } (latches.output ..)
      refine ⟨(MaskPair.maskPort first, byte) :: added, ?_, ?_⟩
      · rw [maskAll, List.foldl_cons, hset]
        refine hadded.trans ?_
        simp only [PortScript.writes, PortScript.output, List.reverse_cons, List.append_assoc]
        rfl
      · simp only [List.filter_cons, h, decide_true, if_true, List.map_cons, hports]
    · have hset := PcController.setMasked_of_le (Nat.not_lt.mp h) true c
      obtain ⟨added, hadded, hports⟩ := ih latches
      refine ⟨added, ?_, ?_⟩
      · rw [maskAll, List.foldl_cons, hset]
        exact hadded
      · simp only [List.filter_cons, h, decide_false, Bool.false_eq_true, if_false, hports]

/-! ## The controller that is handed back -/

/-- The lines with a handler are masked in a section, whatever is refused. -/
theorem Platform.retire_eq [MaskBits κ] {lines : List Nat} {table : InterruptTable κ η}
    (ready : MaskBits.Ready table.controller) (inside : ∀ line ∈ lines, line < interruptLines) :
    ∃ after, retire lines table = (.ok (), after) ∧
      after.controller = maskAll lines table.controller := by
  induction lines generalizing table with
  | nil => exact ⟨table, rfl, rfl⟩
  | cons first rest ih =>
    obtain ⟨next, hset, hnext, -⟩ := MaskBits.setMasked_eq ready first true
    obtain ⟨journal, hmask⟩ :=
      InterruptTable.mask_of_lt (inside first List.mem_cons_self) hset (.disabled first)
    -- whether the controller routes the line or refuses it, the next one is taken up
    let masked : InterruptTable κ η := { table with controller := next, journal }
    have hcontroller : (masked.remove first).controller = next :=
      InterruptTable.remove_controller masked first
    obtain ⟨after, hretire, hafter⟩ := @ih (masked.remove first) (hcontroller.symm ▸ hnext)
      fun line hmem => inside line (List.mem_cons_of_mem _ hmem)
    refine ⟨after, ?_, ?_⟩
    · simp only [retire, InterruptTable.disable, hmask]
      exact hretire
    · rw [hafter, hcontroller, maskAll, maskAll, List.foldl_cons, hset]

namespace Platform

/-- The controller of a platform after shutdown. -/
def handedBack (platform : Platform κ η τ) : κ :=
  let c := platform.interrupts.controller
  InterruptController.restore (InterruptController.saveAndDisable c).1
    (maskAll platform.interrupts.registeredLines (InterruptController.saveAndDisable c).2)

/-- The platform over the same controller, counted from now on. -/
def counting (platform : Platform κ η τ) : Platform (Counted κ) η τ where
  interrupts := platform.interrupts.counting
  timers := platform.timers

variable {platform : Platform κ η τ}

/-- Over a ready controller shutdown meets no fault. -/
theorem shutdown_eq [MaskBits κ] (ready : MaskBits.Ready platform.interrupts.controller) :
    ∃ after, platform.shutdown = (.ok (), after) ∧
      after.interrupts.controller = platform.handedBack := by
  let entered := platform.interrupts.saveAndDisable.2
  have hentered : entered.controller =
      (InterruptController.saveAndDisable platform.interrupts.controller).2 :=
    InterruptTable.saveAndDisable_controller _
  have hready : MaskBits.Ready entered.controller := hentered ▸ (MaskBits.captured ready).1
  have hlines : ∀ line ∈ platform.interrupts.registeredLines, line < interruptLines :=
    fun line => InterruptTable.lt_of_mem_registeredLines
  obtain ⟨inside, hretire, hinside⟩ := retire_eq hready hlines
  have hsection := InterruptTable.criticalSection_of_ok hretire
  refine ⟨_, by simp only [shutdown, hsection]; rfl, ?_⟩
  show InterruptController.restore _ inside.controller = _
  rw [hinside, hentered]
  rfl

/-- What shutdown hands back has its masks set where a handler was. -/
theorem masked_handedBack [MaskBits κ] (ready : MaskBits.Ready platform.interrupts.controller) :
    MaskBits.Ready platform.handedBack ∧
    MaskBits.lines platform.handedBack = MaskBits.lines platform.interrupts.controller ∧
    ∀ line < MaskBits.lines platform.interrupts.controller,
      MaskBits.masked platform.handedBack line =
        ((platform.interrupts.descriptor? line).isSome ||
          MaskBits.masked platform.interrupts.controller line) := by
  obtain ⟨hready, hlines, hmasked⟩ := MaskBits.captured ready
  obtain ⟨hready', hlines', hmasks⟩ := maskAll_bits platform.interrupts.registeredLines hready
  obtain ⟨hready'', hlines'', hmasked'⟩ := MaskBits.written hready'
    (InterruptController.saveAndDisable platform.interrupts.controller).1
  refine ⟨hready'', (hlines''.trans hlines').trans hlines, fun line h => ?_⟩
  rw [handedBack, hmasked', hmasks line (hlines ▸ h), hmasked]
  simp only [InterruptTable.mem_registeredLines, Bool.decide_eq_true]

theorem word_handedBack [GlobalState κ] (platform : Platform κ η τ) :
    GlobalState.word platform.handedBack = GlobalState.word platform.interrupts.controller := by
  rw [handedBack, GlobalState.saved]
  exact GlobalState.restored ..

theorem handedBack_counting (platform : Platform κ η τ) : platform.counting.handedBack =
    { controller := platform.handedBack, saves := 1, restores := 1 } := by
  rw [handedBack, maskAll_counted]
  rfl

theorem flags_handedBack (platform : Platform PcController η τ) :
    let flags := platform.interrupts.controller.flags
    platform.handedBack.flags =
      { word := flags.word, saves := flags.saves + 1, restores := flags.restores + 1 } := by
  let entered := (InterruptController.saveAndDisable platform.interrupts.controller).2
  have hflags := flags_maskAll platform.interrupts.registeredLines entered
  show FlagsWord.restore (maskAll platform.interrupts.registeredLines entered).flags _ = _
  rw [hflags]
  rfl

theorem writes_handedBack {platform : Platform PcController η τ}
    (latches : platform.interrupts.controller.ports.Latches) :
    ∃ added, platform.handedBack.ports.writes =
        platform.interrupts.controller.ports.writes ++ added ∧
      added.map Prod.fst = ((List.range MaskPair.routedLines).filter fun line =>
        (platform.interrupts.descriptor? line).isSome).map MaskPair.maskPort := by
  rw [← InterruptTable.filter_registeredLines (by decide)]
  exact writes_maskAll platform.interrupts.registeredLines
    (c := (InterruptController.saveAndDisable platform.interrupts.controller).2) latches

end Platform

/-! ## Runs of a platform -/

/-- The operations on the interrupt table in an operation on a platform. -/
def PlatformOperation.parts : PlatformOperation κ η τ α → List (InterruptOperation κ η α)
  | .interrupts operation => operation.parts
  | .timers _ => []

namespace PlatformRun

/-- Over a controller that is ready every run completes, and it is ready after it. -/
theorem performAll_ready {Ready : κ → Prop} (faultless : Faultless Ready)
    {run : PlatformRun κ η τ} (ready : Ready run.platform.interrupts.controller)
    (operations : List (PlatformOperation κ η τ α))
    (keeps : ∀ operation ∈ operations, ∀ part ∈ operation.parts, part.Keeps Ready) :
    ∃ answers reached, run.performAll operations = (.ok answers, reached) ∧
      Ready reached.platform.interrupts.controller := by
  induction operations generalizing run with
  | nil => exact ⟨[], run, rfl, ready⟩
  | cons operation rest ih =>
    have hperform : ∃ answer next, run.perform operation = (.ok answer, next) ∧
        Ready next.platform.interrupts.controller := by
      cases operation with
      | interrupts operation =>
        obtain ⟨answer, next, hperform, hready⟩ := InterruptRun.perform_ready faultless ready
          operation (keeps _ List.mem_cons_self)
        refine ⟨.interrupts answer, { run with interrupts := next }, ?_, hready⟩
        simp only [perform, hperform]
        rfl
      | timers operation => exact ⟨_, _, rfl, ready⟩
    obtain ⟨answer, next, hperform, hnext⟩ := hperform
    obtain ⟨answers, reached, hrest, hreached⟩ :=
      ih hnext fun operation h => keeps operation (List.mem_cons_of_mem _ h)
    refine ⟨answer :: answers, reached, ?_, hreached⟩
    simp only [performAll, hperform, hrest]

/-- Over a controller that is ready every run completes, and so does the shutdown after it. -/
theorem shutdown_completes [MaskBits κ] {controller : κ} (ready : MaskBits.Ready controller)
    (journal : Journal) (operations : List (PlatformOperation κ η τ α))
    (keeps : ∀ operation ∈ operations, ∀ part ∈ operation.parts, part.Keeps MaskBits.Ready) :
    ∃ answers reached after,
      (PlatformRun.of (.start controller journal)).performAll operations = (.ok answers, reached) ∧
      MaskBits.Ready reached.platform.interrupts.controller ∧
      reached.platform.shutdown = (.ok (), after) ∧
      after.interrupts.controller = reached.platform.handedBack := by
  let start : PlatformRun κ η τ := .of (.start controller journal)
  have hstart : MaskBits.Ready start.platform.interrupts.controller := ready
  obtain ⟨answers, reached, hperformed, hready⟩ :=
    performAll_ready MaskBits.faultless hstart operations keeps
  obtain ⟨after, hshutdown, hafter⟩ := Platform.shutdown_eq hready
  exact ⟨answers, reached, after, hperformed, hready, hshutdown, hafter⟩

end PlatformRun

/-! ## Both controllers -/

namespace Platform

/-- In memory, the masks after shutdown. -/
theorem masks_handedBack (platform : Platform MaskArray η τ) (line : Nat) :
    platform.handedBack.masked[line]? = platform.interrupts.controller.masked[line]?.map fun mask =>
      (platform.interrupts.descriptor? line).isSome || mask := by
  have hready : MaskBits.Ready platform.interrupts.controller := trivial
  obtain ⟨-, hlines, hmasked⟩ := masked_handedBack hready
  have hlength : platform.handedBack.masked.length =
    platform.interrupts.controller.masked.length := hlines
  by_cases h : line < platform.interrupts.controller.masked.length
  · have hmask : (platform.handedBack.masked[line]?).getD true = _ := hmasked line h
    have hfound : MaskBits.masked platform.interrupts.controller line =
      (platform.interrupts.controller.masked[line]?).getD true := rfl
    rw [List.getElem?_eq_getElem (hlength ▸ h), Option.getD_some] at hmask
    rw [hfound, List.getElem?_eq_getElem h, Option.getD_some] at hmask
    rw [List.getElem?_eq_getElem (hlength ▸ h), List.getElem?_eq_getElem h, hmask]
    rfl
  · rw [List.getElem?_eq_none (hlength ▸ Nat.not_lt.mp h),
      List.getElem?_eq_none (Nat.not_lt.mp h)]
    rfl

/-- At a PC, the answers of the mask pair before shutdown and after it. -/
theorem isMasked_handedBack {platform : Platform PcController η τ}
    (latches : platform.interrupts.controller.ports.Latches) {line : Nat}
    (h : line < MaskPair.routedLines) : ∃ mask,
      MaskPair.isMasked line platform.interrupts.controller.ports =
        .ok (.ok mask, platform.interrupts.controller.ports) ∧
      MaskPair.isMasked line platform.handedBack.ports =
        .ok (.ok ((platform.interrupts.descriptor? line).isSome || mask),
          platform.handedBack.ports) := by
  have hready : MaskBits.Ready platform.interrupts.controller := latches
  obtain ⟨hlatches, -, hmasked⟩ := masked_handedBack hready
  have hmask : MaskPair.masked platform.handedBack.ports line =
    ((platform.interrupts.descriptor? line).isSome ||
      MaskPair.masked platform.interrupts.controller.ports line) := hmasked line h
  refine ⟨MaskPair.masked platform.interrupts.controller.ports line, ?_, ?_⟩
  · rw [MaskPair.isMasked_eq latches, MaskPair.routed, if_pos h]
  · rw [MaskPair.isMasked_eq hlatches, MaskPair.routed, if_pos h, hmask]

end Platform

/-- **Shutdown masks exactly what has a handler.** A platform is started over a controller in
memory, or over a PC whose ports latch; any run of operations on its tables, and of others on the
controller that meet no fault and leave the ports latching, completes, and so does shutdown. Of
the controller that is handed back each routed line is masked if a handler was registered on it,
and otherwise as it was; lines that are not routed make no difference. The global state is the one
found, the whole flags word of a PC, with one save and one restore more; a controller in memory is
counted for that. All that a PC has written is one byte to the mask port of each routed line with a
handler, in ascending order of the lines. -/
theorem shutdown_masks_registered :
    (∀ (controller : MaskArray) (journal : Journal)
      (operations : List (PlatformOperation MaskArray η τ α)),
      (∀ operation ∈ operations, ∀ part ∈ operation.parts, part.Keeps fun _ => True) →
      ∃ answers reached after,
        (PlatformRun.of (.start controller journal)).performAll operations =
          (.ok answers, reached) ∧
        reached.platform.shutdown = (.ok (), after) ∧
        let table := reached.platform.interrupts
        let left := after.interrupts.controller
        (∀ line, left.masked[line]? = table.controller.masked[line]?.map fun mask =>
          (table.descriptor? line).isSome || mask) ∧
        left.enabled = table.controller.enabled ∧
        ∃ counted, reached.platform.counting.shutdown = (.ok (), counted) ∧
          counted.interrupts.controller = { controller := left, saves := 1, restores := 1 }) ∧
    (∀ (controller : PcController) (journal : Journal)
      (operations : List (PlatformOperation PcController η τ α)),
      controller.ports.Latches →
      (∀ operation ∈ operations, ∀ part ∈ operation.parts, part.Keeps (·.ports.Latches)) →
      ∃ answers reached after,
        (PlatformRun.of (.start controller journal)).performAll operations =
          (.ok answers, reached) ∧
        reached.platform.shutdown = (.ok (), after) ∧
        let table := reached.platform.interrupts
        let found := table.controller
        let left := after.interrupts.controller
        (∀ line < MaskPair.routedLines, ∃ mask,
          MaskPair.isMasked line found.ports = .ok (.ok mask, found.ports) ∧
          MaskPair.isMasked line left.ports =
            .ok (.ok ((table.descriptor? line).isSome || mask), left.ports)) ∧
        left.flags =
          { word := found.flags.word
            saves := found.flags.saves + 1
            restores := found.flags.restores + 1 } ∧
        ∃ added, left.ports.writes = found.ports.writes ++ added ∧
          added.map Prod.fst = ((List.range MaskPair.routedLines).filter fun line =>
            (table.descriptor? line).isSome).map MaskPair.maskPort) := by
  constructor
  · intro controller journal operations keeps
    have hready : MaskBits.Ready controller := trivial
    obtain ⟨answers, reached, after, hperformed, -, hshutdown, hafter⟩ :=
      PlatformRun.shutdown_completes hready journal operations keeps
    have hcounting : MaskBits.Ready reached.platform.counting.interrupts.controller := trivial
    obtain ⟨counted, hcounted, hcontroller⟩ := Platform.shutdown_eq hcounting
    refine ⟨answers, reached, after, hperformed, hshutdown, ?_⟩
    rw [Platform.handedBack_counting] at hcontroller
    rw [hafter]
    have henabled : InterruptController.enabled reached.platform.handedBack =
        InterruptController.enabled reached.platform.interrupts.controller :=
      GlobalState.enabled_congr (Platform.word_handedBack reached.platform)
    exact ⟨Platform.masks_handedBack _, henabled, counted, hcounted, hcontroller⟩
  · intro controller journal operations latches keeps
    have hready : MaskBits.Ready controller := latches
    obtain ⟨answers, reached, after, hperformed, hreached, hshutdown, hafter⟩ :=
      PlatformRun.shutdown_completes hready journal operations keeps
    refine ⟨answers, reached, after, hperformed, hshutdown, ?_⟩
    rw [hafter]
    exact ⟨fun line => Platform.isMasked_handedBack hreached, Platform.flags_handedBack _,
      Platform.writes_handedBack hreached⟩

/-- Handlers on two routed lines and on one that is not, a line that is enabled without a handler,
and a timer. -/
def handlersAndTimer (κ : Type) : List (PlatformOperation κ Nat Nat Unit) :=
  [.interrupts (.register 1 7 0 0), .interrupts (.enable 1), .interrupts (.enable 4),
    .timers (.start 5 0), .interrupts (.critical [.register 9 7 0 0, .register 200 7 0 0]),
    .timers .tick]

theorem handlersAndTimer_keeps {κ : Type} (Ready : κ → Prop) :
    ∀ operation ∈ handlersAndTimer κ, ∀ part ∈ operation.parts, part.Keeps Ready := by
  simp [handlersAndTimer, PlatformOperation.parts, InterruptOperation.parts,
    InterruptOperation.partsAll, InterruptOperation.Keeps]

/-- After them, shutdown masks line 1 and leaves line 4 enabled, in memory and at a PC, and writes
once to each of the two mask ports. -/
theorem shutdown_masks_registered_two :
    let pc : PcController := { ports := { latching := true }, flags := { word := 0x246 } }
    (∃ answers reached after,
      (PlatformRun.of (.start (MaskArray.create 16 true))).performAll (handlersAndTimer MaskArray) =
        (.ok answers, reached) ∧
      reached.platform.shutdown = (.ok (), after) ∧
      after.interrupts.controller.masked[1]? = some true ∧
      after.interrupts.controller.masked[4]? = some false ∧
      after.interrupts.controller.enabled = reached.platform.interrupts.controller.enabled) ∧
    ∃ answers reached after,
      (PlatformRun.of (.start pc)).performAll (handlersAndTimer PcController) =
        (.ok answers, reached) ∧
      reached.platform.shutdown = (.ok (), after) ∧
      let left := after.interrupts.controller
      MaskPair.isMasked 1 left.ports = .ok (.ok true, left.ports) ∧
      MaskPair.isMasked 4 left.ports = .ok (.ok false, left.ports) ∧
      left.flags = { word := 0x246, saves := 2, restores := 2 } ∧
      ∃ added, left.ports.writes = reached.platform.interrupts.controller.ports.writes ++ added ∧
        added.map Prod.fst = [MaskPair.masterData, MaskPair.slaveData] := by
  intro pc
  constructor
  · let start : PlatformRun MaskArray Nat Nat := .of (.start (MaskArray.create 16 true))
    let last := (start.performAll (handlersAndTimer MaskArray)).2.platform.interrupts
    have hfound : last.controller.masked[1]? = some false ∧
        last.controller.masked[4]? = some false := by decide +kernel
    have hhandlers : (last.descriptor? 1).isSome ∧ (last.descriptor? 4).isSome = false := by
      decide +kernel
    obtain ⟨answers, reached, after, hperformed, hshutdown, hmasks, henabled, -⟩ :=
      shutdown_masks_registered.1 (MaskArray.create 16 true) .empty (handlersAndTimer MaskArray)
        (handlersAndTimer_keeps _)
    have hlast : last = reached.platform.interrupts :=
      congrArg (fun performed => performed.2.platform.interrupts) hperformed
    rw [hlast] at hfound hhandlers
    refine ⟨answers, reached, after, hperformed, hshutdown, ?_, ?_, henabled⟩
    · rw [hmasks, hfound.1, hhandlers.1]
      rfl
    · rw [hmasks, hfound.2, hhandlers.2]
      rfl
  · let start : PlatformRun PcController Nat Nat := .of (.start pc)
    let last := (start.performAll (handlersAndTimer PcController)).2.platform.interrupts
    have hfound : ∀ line ∈ [1, 4], ((MaskPair.isMasked line last.controller.ports).toOption.bind
        fun answered => answered.1.toOption) = some false := by decide +kernel
    have hhandlers : ∀ line < MaskPair.routedLines,
        (last.descriptor? line).isSome = decide (line ∈ [1, 9]) := by decide +kernel
    have hflags : last.controller.flags = { word := 0x246, saves := 1, restores := 1 } := by
      decide +kernel
    obtain ⟨answers, reached, after, hperformed, hshutdown, hmasks, hleft, added, hadded, hports⟩ :=
      shutdown_masks_registered.2 pc .empty (handlersAndTimer PcController) ⟨rfl, rfl⟩
        (handlersAndTimer_keeps _)
    have hlast : last = reached.platform.interrupts :=
      congrArg (fun performed => performed.2.platform.interrupts) hperformed
    rw [hlast] at hfound hhandlers hflags
    have hmask : ∀ line ∈ [1, 4], MaskPair.isMasked line after.interrupts.controller.ports =
        .ok (.ok (decide (line = 1)), after.interrupts.controller.ports) := by
      intro line hline
      have hrouted : ∀ line ∈ [1, 4], line < MaskPair.routedLines := by decide
      have hdecide : ∀ line ∈ [1, 4], decide (line ∈ [1, 9]) = decide (line = 1) := by decide
      obtain ⟨mask, hbefore, hafter⟩ := hmasks line (hrouted line hline)
      have hvalue := hfound line hline
      rw [hbefore] at hvalue
      obtain rfl : mask = false := Option.some.inj hvalue
      rw [hafter, hhandlers line (hrouted line hline), Bool.or_false, hdecide line hline]
    refine ⟨answers, reached, after, hperformed, hshutdown, hmask 1 (by decide),
      hmask 4 (by decide), ?_, added, hadded, ?_⟩
    · rw [hleft, hflags]
    · rw [hports, List.filter_congr fun line h => hhandlers line (List.mem_range.mp h)]
      rfl

end Firmware
