/-
  Firmware: bytes that are put into a peripheral directly, and the same bytes sent to it over the
  bus. The direct way counts its slots around the end of the memory, the way over the bus follows
  the pointer of the peripheral, which wraps around; they leave the same memory. What a peripheral
  holds is also what is received from it, from any offset on.
-/
import Firmware.Proofs.I2c.Calm
import Firmware.Proofs.I2c.RawAccesses

namespace Firmware.I2c

namespace Peripheral

variable (p : Peripheral) (start : UInt8)

theorem load_append (bytes : List UInt8) (byte : UInt8) :
    p.load start (bytes ++ [byte]) =
      (p.load start bytes).put (start.toNat + bytes.length) byte := by
  rw [load, List.zipIdx_append, List.foldl_append, Nat.zero_add]
  rfl

/-- A direct load leaves the memory that a write transfer leaves. -/
theorem memory_load (bytes : List UInt8) :
    (p.load start bytes).memory = (p.written (start :: bytes)).memory := by
  induction bytes using List.reverseRecOn with
  | nil =>
    apply Vector.ext
    intro slot hslot
    simp [load, written, landed_nil, Vector.get]
  | append_singleton bytes byte ih =>
    apply Vector.ext
    intro slot hslot
    simp only [load_append, put, ih, written, Vector.getElem_set, Vector.getElem_ofFn,
      landed_append]
    split <;> rfl

/-- Once the pointer is set, a read transfer shows the slots from there on. -/
theorem getElem_shown_pointed (length : Nat) {n : Nat}
    (hn : n < ((p.written [start]).shown length).length) :
    ((p.written [start]).shown length)[n] =
      p.memory.get ⟨(start.toNat + n) % memorySize, Nat.mod_lt _ (by decide)⟩ := by
  have hpointer : (p.written [start]).pointer = start := UInt8.add_zero start
  have hslot : (p.written [start]).slot n =
      ⟨(start.toNat + n) % memorySize, Nat.mod_lt _ (by decide)⟩ :=
    Fin.ext (congrArg (fun pointer : UInt8 => (pointer.toNat + n) % memorySize) hpointer)
  simp only [shown, List.getElem_map, List.getElem_range, memory_written_pointer, hslot]

end Peripheral

namespace Simulator

variable {s : Simulator} {p : Peripheral} {address : UInt8}

theorem memory?_of_attached (hp : s.peripheral? address = some p) :
    s.memory? address = some p.memory :=
  congrArg (Option.map Peripheral.memory) hp

theorem load_of_attached (hp : s.peripheral? address = some p) (start : UInt8)
    (bytes : List UInt8) :
    s.load address start bytes = s.place address (some (p.load start bytes)) := by
  rw [load, hp]

end Simulator

namespace Controller

open Simulator

variable {τ : Type} {p : Peripheral}

/-- **Preloading and transmitting agree.** On a simulator in any reachable state that is not stalled
and withholds no acknowledgment, whose bus gets free within the budget of a controller at its base,
and with any relax hook that leaves it alone: whether bytes, of any number, are loaded into an
attached peripheral directly from an offset on or are sent to it behind that offset, its memory is
the same afterwards, in every slot the last byte that lands there, and all other peripherals are as
before. Conversely, once the offset was sent, a receive fills its buffer with the memory from there
on, around its end. -/
theorem load_agrees_with_send {relax : Simulator × τ → Simulator × τ}
    (harmless : ∀ s, (relax s).1 = s.1) (c : Controller (Simulator × τ))
    (reachable : Reachable c.config.baseAddress c.bus.1) (address : Address)
    (attached : c.bus.1.peripheral? address.value = some p) (running : c.bus.1.stalled = false)
    (willing : c.bus.1.nacks = 0) (hfree : c.bus.1.heldReads < c.config.timeoutBudget.toNat)
    (start : UInt8) :
    (∀ bytes,
      let loaded := c.bus.1.load address.value start bytes
      let sent := c.send (hosted relax) address.value (start :: bytes)
      sent.1 = .ok () ∧
      (∃ memory, loaded.memory? address.value = some memory ∧
        sent.2.bus.1.memory? address.value = some memory ∧
        ∀ slot : Fin memorySize, memory.get slot =
          (Peripheral.landed start bytes slot.val).getD (p.memory.get slot)) ∧
      ∀ other, other ≠ address.value →
        loaded.peripheral? other = c.bus.1.peripheral? other ∧
        sent.2.bus.1.peripheral? other = c.bus.1.peripheral? other) ∧
    (∀ buffer,
      let pointed := c.send (hosted relax) address.value [start]
      let received := pointed.2.receive (hosted relax) address.value buffer
      pointed.1 = .ok () ∧ received.1 = .ok () ∧ received.2.1.length = buffer.length ∧
      ∀ n, (hn : n < received.2.1.length) → received.2.1[n] =
        p.memory.get ⟨(start.toNat + n) % memorySize, Nat.mod_lt _ (by decide)⟩) := by
  have sends (bytes : List UInt8) : ∃ c',
      c.send (hosted relax) address.value bytes = (.ok (), c') ∧
      c.seen.CalmAfter c'.seen
        (c.bus.1.place address.value (some (p.written bytes))).peripherals := by
    obtain ⟨c', hexchange, hafter⟩ := exchange_free harmless reachable.sound hfree willing running
      address (.write bytes) attached
    refine ⟨c', ?_, hafter⟩
    rw [send, hexchange]
  refine ⟨fun bytes => ?_, fun buffer => ?_⟩
  · obtain ⟨c', hsend, hafter⟩ := sends (start :: bytes)
    have hperipherals (other : UInt8) := peripheral?_congr hafter.peripherals_eq other
    have hwritten : c'.bus.1.peripheral? address.value = some (p.written (start :: bytes)) :=
      (hperipherals _).trans (peripheral?_place ..)
    have hloaded : (c.bus.1.load address.value start bytes).peripheral? address.value =
        some (p.load start bytes) := by
      rw [load_of_attached attached, peripheral?_place]
    have hmemory := p.memory_load start bytes
    dsimp only
    rw [hsend]
    refine ⟨rfl, ⟨_, memory?_of_attached hloaded, ?_, fun slot => ?_⟩, fun other hne => ⟨?_, ?_⟩⟩
    · rw [memory?_of_attached hwritten, hmemory]
    · rw [hmemory, Peripheral.get_written]
    · rw [load_of_attached attached, peripheral?_place_ne _ hne]
    · exact (hperipherals other).trans (peripheral?_place_ne _ hne _)
  · obtain ⟨c₁, hsend, hafter⟩ := sends [start]
    have hconfig : c₁.config = c.config := hafter.config_eq
    have calm : c₁.bus.1.Calm c₁.config.baseAddress := hconfig ▸ hafter.calm
    have hbudget : 0 < c₁.config.timeoutBudget.toNat := hconfig ▸ Nat.zero_lt_of_lt hfree
    have hpointed : c₁.bus.1.peripheral? address.value = some (p.written [start]) :=
      (peripheral?_congr hafter.peripherals_eq _).trans (peripheral?_place ..)
    obtain ⟨c₂, hreceive, -⟩ :=
      exchange_delivered harmless calm hbudget address (.read buffer) hpointed
    have hfilled : c₁.receive (hosted relax) address.value buffer =
        (.ok (), (p.written [start]).shown buffer.length, c₂) := by
      rw [receive, hreceive]
      rfl
    dsimp only
    rw [hsend, hfilled]
    exact ⟨rfl, rfl, Peripheral.length_shown _ _,
      fun n hn => p.getElem_shown_pointed start buffer.length hn⟩

/-- A peripheral that was preloaded around the end of its memory, on a bus that is held for three
looks: six hundred bytes, which lap the memory, and four bytes received from the last slot but one
on. -/
theorem load_agrees_with_send_lapped :
    let sim := (Handling.holdBus 3).applied ((Handling.load 0x50 0xFE [1, 2, 3]).applied
      ((Handling.attach 0x50).applied (Simulator.create defaultBase)))
    let c := Controller.create { timeoutBudget := 4 } (sim, ())
    let address : Address := ⟨0x50, by decide⟩
    let bytes := List.replicate 600 (7 : UInt8)
    Reachable c.config.baseAddress c.bus.1 ∧ c.bus.1.stalled = false ∧ c.bus.1.nacks = 0 ∧
    c.bus.1.heldReads < c.config.timeoutBudget.toNat ∧
    (c.send (hosted id) address.value (0xFE :: bytes)).1 = .ok () ∧
    (c.send (hosted id) address.value (0xFE :: bytes)).2.bus.1.memory? address.value =
      (c.bus.1.load address.value 0xFE bytes).memory? address.value ∧
    ((c.send (hosted id) address.value [0xFE]).2.receive (hosted id) address.value
      [0, 0, 0, 0]).2.1 = [1, 2, 3, 0] := by
  intro sim c address bytes
  have harmless (s : Simulator × Unit) : (id s).1 = s.1 := rfl
  have reachable : Reachable c.config.baseAddress c.bus.1 :=
    .handle (.holdBus 3) (.handle (.load 0x50 0xFE [1, 2, 3]) (.handle (.attach 0x50) .create))
  let p : Peripheral := Peripheral.load {} 0xFE [1, 2, 3]
  have attached : c.bus.1.peripheral? address.value = some p := by
    have hplace := peripheral?_place (.create defaultBase) 0x50 (some {})
    have hload := load_of_attached hplace 0xFE [1, 2, 3]
    exact (congrArg (·.peripheral? 0x50) hload).trans (peripheral?_place ..)
  have hfree : c.bus.1.heldReads < c.config.timeoutBudget.toNat := by decide
  obtain ⟨hload, hreceive⟩ := load_agrees_with_send harmless c reachable address attached rfl rfl
    hfree 0xFE
  obtain ⟨hsent, ⟨memory, hloaded, hmemory, -⟩, -⟩ := hload bytes
  obtain ⟨-, -, hlength, hbytes⟩ := hreceive [0, 0, 0, 0]
  refine ⟨reachable, rfl, rfl, hfree, hsent, hmemory.trans hloaded.symm, ?_⟩
  refine List.ext_getElem hlength ?_
  intro n hn hn'
  rw [hbytes n hn]
  have hcases : n = 0 ∨ n = 1 ∨ n = 2 ∨ n = 3 := by
    simp only [List.length_cons, List.length_nil] at hn'
    omega
  rcases hcases with rfl | rfl | rfl | rfl <;> rfl

end Controller

end Firmware.I2c
