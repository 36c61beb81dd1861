/-
  Firmware: a simulated bus without faults as a store of bytes, each named by the address of a
  peripheral and a register. Reading a register, scanning and looking at the controller leave the
  store as it is; writing a register changes one byte; an address that nobody has, or that is too
  high, is refused and changes nothing.
-/
import Firmware.I2c.Console.Run
import Firmware.Proofs.I2c.Scan

namespace Firmware.I2c

/-- Bytes by address and register. At an address that nobody has there is none. -/
abbrev ByteStore := UInt8 → UInt8 → Option UInt8

/-- The store with one byte changed. -/
def ByteStore.put (store : ByteStore) (address register value : UInt8) : ByteStore :=
  fun a r => if a = address ∧ r = register then some value else store a r

namespace Peripheral

/-- The byte in a register of a peripheral. -/
def byteAt (p : Peripheral) (register : UInt8) : UInt8 :=
  p.memory.get ⟨register.toNat, register.toNat_lt⟩

theorem byteAt_written (p : Peripheral) (register value other : UInt8) :
    (p.written [register, value]).byteAt other =
      if other = register then value else p.byteAt other := by
  have hslot : (register.toNat + 0) % memorySize = register.toNat :=
    Nat.mod_eq_of_lt register.toNat_lt
  have hlanded : landed register [value] other.toNat =
      if other = register then some value else none := by
    rw [← List.nil_append [value], landed_append, List.length_nil, hslot, landed_nil]
    simp only [UInt8.toNat_inj, eq_comm]
  rw [byteAt, get_written, hlanded]
  split <;> rfl

/-- Once the pointer is set to a register, the register is shown. -/
theorem shown_pointed (p : Peripheral) (register : UInt8) :
    (p.written [register]).shown 1 = [p.byteAt register] := by
  have hpointer : (p.written [register]).pointer = register := UInt8.add_zero register
  rw [shown_succ]
  show [(p.written [register]).byteAt (p.written [register]).pointer] = _
  rw [hpointer, byteAt, memory_written_pointer]
  rfl

end Peripheral

namespace Simulator

/-- The bytes in the registers of the peripherals. -/
def bytes (s : Simulator) : ByteStore := fun address register =>
  (s.peripheral? address).map fun p => p.byteAt register

variable {s : Simulator} {p q : Peripheral} {address : UInt8}

theorem bytes_congr {s' : Simulator} (h : s'.peripherals = s.peripherals) : s'.bytes = s.bytes := by
  funext address register
  rw [bytes, bytes, peripheral?_congr h]

theorem bytes_of_attached (hp : s.peripheral? address = some p) (register : UInt8) :
    s.bytes address register = some (p.byteAt register) := by
  rw [bytes, hp]
  rfl

theorem bytes_of_none (hnone : s.peripheral? address = none) (register : UInt8) :
    s.bytes address register = none := by
  rw [bytes, hnone]
  rfl

theorem bytes_place (s : Simulator) (address : UInt8) (q : Peripheral) (other register : UInt8) :
    (s.place address (some q)).bytes other register =
      if other = address then some (q.byteAt register) else s.bytes other register := by
  by_cases h : other = address
  · rw [if_pos h, h, bytes_of_attached (peripheral?_place ..)]
  · rw [if_neg h, bytes, peripheral?_place_ne s h]
    rfl

/-- Pointers are not part of the store. -/
theorem bytes_place_same (hp : s.peripheral? address = some p) (hmemory : q.memory = p.memory) :
    (s.place address (some q)).bytes = s.bytes := by
  funext other register
  rw [bytes_place]
  split
  · subst other
    rw [bytes_of_attached hp, Peripheral.byteAt, Peripheral.byteAt, hmemory]
  · rfl

theorem bytes_place_written (hp : s.peripheral? address = some p) (register value : UInt8) :
    (s.place address (some (p.written [register, value]))).bytes =
      s.bytes.put address register value := by
  funext other r
  rw [bytes_place, Peripheral.byteAt_written, ByteStore.put]
  by_cases hother : other = address
  · subst hother
    by_cases hr : r = register
    · simp [hr]
    · simp [hr, bytes_of_attached hp]
  · simp [hother]

theorem ascending_attached (s : Simulator) :
    ((Address.all.filter s.attached).map Address.value).Pairwise (· < ·) :=
  List.pairwise_map.mpr (Address.pairwise_all.filter _)

theorem mem_attached_iff (s : Simulator) (address register : UInt8) :
    address ∈ (Address.all.filter s.attached).map Address.value ↔
      address ≤ highestAddress ∧ (s.bytes address register).isSome := by
  simp only [List.mem_map, List.mem_filter, Address.mem_all, true_and, attached, bytes,
    Option.isSome_map]
  constructor
  · rintro ⟨a, hattached, rfl⟩
    exact ⟨a.le_highest, hattached⟩
  · rintro ⟨low, hattached⟩
    exact ⟨⟨address, low⟩, hattached, rfl⟩

/-- On a calm bus exactly the attached addresses answer. -/
theorem Calm.answering {base : UInt64} (h : s.Calm base) (budget : Nat)
    (addresses : List Address) : s.answering budget addresses = addresses.filter s.attached := by
  rw [Simulator.answering, h.running, h.free, h.willing, Nat.zero_div]
  rfl

end Simulator

namespace Controller

open Simulator

variable {τ : Type}

/-- A controller that will not run out of a budget by itself, on a bus without faults. -/
structure Fit (c : Controller (Simulator × τ)) : Prop where
  calm : c.bus.1.Calm c.config.baseAddress
  budget_pos : 0 < c.config.timeoutBudget.toNat
  scanBudget_pos : 0 < c.config.scanTimeoutBudget.toNat

variable {relax : Simulator × τ → Simulator × τ} {c c' : Controller (Simulator × τ)}
  {peripherals : Vector (Option Peripheral) 256} {p : Peripheral}

theorem Fit.after (fit : c.Fit) (h : c.seen.CalmAfter c'.seen peripherals) : c'.Fit := by
  have hconfig : c'.config = c.config := h.config_eq
  constructor <;> rw [hconfig]
  · exact h.calm
  · exact fit.budget_pos
  · exact fit.scanBudget_pos

/-! ## Registers of peripherals -/

theorem send_delivered (harmless : ∀ s, (relax s).1 = s.1) (fit : c.Fit) (address : Address)
    (bytes : List UInt8) (hp : c.bus.1.peripheral? address.value = some p) :
    ∃ c', c.send (hosted relax) address.value bytes = (.ok (), c') ∧ c'.Fit ∧
      c'.bus.1.peripherals =
        (c.bus.1.place address.value (some (p.written bytes))).peripherals := by
  obtain ⟨c', hexchange, hafter⟩ :=
    exchange_delivered harmless fit.calm fit.budget_pos address (.write bytes) hp
  refine ⟨c', ?_, fit.after hafter, hafter.peripherals_eq⟩
  rw [send, hexchange]

theorem send_nobody (harmless : ∀ s, (relax s).1 = s.1) (fit : c.Fit) (address : Address)
    (bytes : List UInt8) (hnone : c.bus.1.peripheral? address.value = none) :
    ∃ c', c.send (hosted relax) address.value bytes = (.error .timeout, c') ∧ c'.Fit ∧
      c'.bus.1.bytes = c.bus.1.bytes := by
  obtain ⟨c', hexchange, hafter⟩ :=
    exchange_refused harmless fit.calm fit.budget_pos address (.write bytes) hnone
  refine ⟨c', ?_, fit.after hafter, bytes_congr hafter.peripherals_eq⟩
  rw [send, hexchange]

/-- An address above seven bits is refused on any hardware, and nothing happens. -/
theorem send_high {σ : Type} {hardware : Hardware σ} (d : Controller σ) {address : UInt8}
    (high : highestAddress < address) (bytes : List UInt8) :
    d.send hardware address bytes = (.error (.outOfRange address.toNat), d) := by
  rw [send, exchange, Address.ofByte, dif_neg (UInt8.not_le.mpr high)]

/-- Naming a register and reading it takes two exchanges, and neither changes a byte. -/
theorem readRegister_delivered (harmless : ∀ s, (relax s).1 = s.1) (fit : c.Fit)
    (address : Address) (register : UInt8)
    (hp : c.bus.1.peripheral? address.value = some p) :
    ∃ c', c.readRegister (hosted relax) address.value register = (.ok (p.byteAt register), c') ∧
      c'.Fit ∧ c'.bus.1.bytes = c.bus.1.bytes := by
  obtain ⟨c₁, hnamed, fit₁, hperipherals⟩ := send_delivered harmless fit address [register] hp
  have hp₁ : c₁.bus.1.peripheral? address.value = some (p.written [register]) :=
    (peripheral?_congr hperipherals _).trans (peripheral?_place ..)
  obtain ⟨c₂, hread, hafter⟩ :=
    exchange_delivered harmless fit₁.calm fit₁.budget_pos address (.read [0]) hp₁
  refine ⟨c₂, ?_, fit₁.after hafter, ?_⟩
  · rw [readRegister, hnamed]
    simp only [receive, hread]
    show (Except.ok (((p.written [register]).shown 1).headD 0), c₂) = _
    rw [Peripheral.shown_pointed]
    rfl
  · calc c₂.bus.1.bytes
      _ = (c₁.bus.1.place _ (some ((p.written [register]).passed 1))).bytes :=
        bytes_congr hafter.peripherals_eq
      _ = c₁.bus.1.bytes := bytes_place_same hp₁ rfl
      _ = (c.bus.1.place _ (some (p.written [register]))).bytes := bytes_congr hperipherals
      _ = c.bus.1.bytes := bytes_place_same hp (p.memory_written_pointer register)

/-! ## The controller itself -/

theorem scan_attached (harmless : ∀ s, (relax s).1 = s.1) (fit : c.Fit) :
    ∃ c', c.scan (hosted relax) = (Address.all.filter c.bus.1.attached, c') ∧ c'.Fit ∧
      c'.bus.1.bytes = c.bus.1.bytes := by
  have calm : c.seen.bus.Calm c.seen.config.baseAddress := fit.calm
  obtain ⟨hfound, hseen⟩ := scan_seen harmless c
  obtain ⟨d, hprobe, hcalm, -⟩ :=
    probe_answering (c := c.seen) calm.toSound fit.scanBudget_pos Address.all
  rw [calm.answering] at hprobe
  have hscan : c.seen.scan alone = (Address.all.filter c.bus.1.attached,
      d.note (.found (Address.all.filter c.bus.1.attached).length)) := by
    rw [scan, hprobe]
    rfl
  rw [hscan] at hfound hseen
  generalize c.scan (hosted relax) = scanned at hfound hseen ⊢
  obtain ⟨found, c'⟩ := scanned
  have hafter : c.seen.CalmAfter c'.seen c.bus.1.peripherals := by
    rw [show c'.seen = _ from hseen]
    exact ⟨(hcalm calm).config_eq, (hcalm calm).calm, (hcalm calm).peripherals_eq⟩
  exact ⟨c', congrArg (·, c') hfound, fit.after hafter, bytes_congr hafter.peripherals_eq⟩

variable (relax)

/-- A look at any register but that of the data changes no byte. -/
theorem readRegisterAt_fit (fit : c.Fit) (offset : UInt64) (hdata : offset ≠ dataOffset) :
    (c.readRegisterAt (hosted relax) offset).2.Fit ∧
      (c.readRegisterAt (hosted relax) offset).2.bus.1.bytes = c.bus.1.bytes := by
  have hafter : c.seen.CalmAfter (c.readRegisterAt (hosted relax) offset).2.seen
      c.bus.1.peripherals := by
    show c.seen.CalmAfter
      { c.seen with bus := ((bare c.config.baseAddress).read offset c.bus.1).2 } _
    rw [bare_read fit.calm.base_eq, if_neg hdata]
    split
    · exact ⟨rfl, fit.calm.looked 1, rfl⟩
    · repeat' split
      all_goals exact ⟨rfl, fit.calm, rfl⟩
  exact ⟨fit.after hafter, bytes_congr hafter.peripherals_eq⟩

theorem dumpRegisters_fit (fit : c.Fit) :
    (Console.dumpRegisters (hosted relax) c).2.Fit ∧
      (Console.dumpRegisters (hosted relax) c).2.bus.1.bytes = c.bus.1.bytes := by
  obtain ⟨fit₁, hstatus⟩ := readRegisterAt_fit relax fit statusOffset (by decide)
  unfold Console.dumpRegisters
  generalize c.readRegisterAt (hosted relax) statusOffset = looked at fit₁ hstatus ⊢
  obtain ⟨status, c₁⟩ := looked
  obtain ⟨fit₂, hcontrol⟩ := readRegisterAt_fit relax fit₁ controlOffset (by decide)
  dsimp only
  generalize c₁.readRegisterAt (hosted relax) controlOffset = looked at fit₂ hcontrol ⊢
  obtain ⟨control, c₂⟩ := looked
  obtain ⟨fit₃, hclock⟩ := readRegisterAt_fit relax fit₂ clockOffset (by decide)
  dsimp only
  generalize c₂.readRegisterAt (hosted relax) clockOffset = looked at fit₃ hclock ⊢
  obtain ⟨clock, c₃⟩ := looked
  exact ⟨⟨fit₃.calm, fit₃.budget_pos, fit₃.scanBudget_pos⟩,
    hclock.trans (hcontrol.trans hstatus)⟩

theorem setSpeed_fit (fit : c.Fit) (hz : UInt32) :
    (c.setSpeed (hosted relax) hz).Fit ∧
      (c.setSpeed (hosted relax) hz).bus.1.bytes = c.bus.1.bytes := by
  have hbus : (c.setSpeed (hosted relax) hz).bus.1 = { c.bus.1 with clock := hz } :=
    write_clock fit.calm.base_eq hz
  have hafter : c.seen.CalmAfter (c.setSpeed (hosted relax) hz).seen c.bus.1.peripherals := by
    refine ⟨rfl, ?_, ?_⟩
    · show (c.setSpeed (hosted relax) hz).bus.1.Calm c.config.baseAddress
      rw [hbus]
      exact fit.calm.keep (fit.calm.toSound.keep rfl rfl) fit.calm.free rfl rfl
    · show (c.setSpeed (hosted relax) hz).bus.1.peripherals = _
      rw [hbus]
  exact ⟨fit.after hafter, bytes_congr hafter.peripherals_eq⟩

end Controller

end Firmware.I2c
