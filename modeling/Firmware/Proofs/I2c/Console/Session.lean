/-
  Firmware: lines of text as commands to a store of bytes. On a simulated bus without faults a
  line is either refused, and then nothing happens, or its command is answered from the store of
  bytes and may change one of them. So what a register holds after any lines is what the latest
  write that succeeded says, or what it held before them.
-/
import Firmware.Proofs.I2c.ByteStore
import Firmware.Proofs.Recording

namespace Firmware.I2c

open Console

/-! ## Commands to a store -/

/-- What a command is answered from a store of bytes, and the store after it. -/
inductive ByteStore.Answers (store : ByteStore) :
    Command → Except Error Report → ByteStore → Prop where
  | read {address register value : UInt8} (low : address ≤ highestAddress)
    (known : store address register = some value) :
    Answers store (.read address register) (.ok (.read address register value)) store
  | write {address register value : UInt8} (low : address ≤ highestAddress)
    (known : (store address register).isSome) :
    Answers store (.write address register value) (.ok (.write address register value))
      (store.put address register value)
  | readNobody {address register : UInt8} (low : address ≤ highestAddress)
    (nobody : store address register = none) :
    Answers store (.read address register) (.error .timeout) store
  | writeNobody {address register value : UInt8} (low : address ≤ highestAddress)
    (nobody : store address register = none) :
    Answers store (.write address register value) (.error .timeout) store
  | readHigh {address register : UInt8} (high : highestAddress < address) :
    Answers store (.read address register) (.error (.outOfRange address.toNat)) store
  | writeHigh {address register value : UInt8} (high : highestAddress < address) :
    Answers store (.write address register value) (.error (.outOfRange address.toNat)) store
  /-- A scan finds the addresses that somebody has, in ascending order. -/
  | scan {present : List UInt8} (ascending : present.Pairwise (· < ·))
    (found : ∀ address register,
      address ∈ present ↔ address ≤ highestAddress ∧ (store address register).isSome) :
    Answers store .scan (.ok (.scan present)) store
  | registers (dump : RegisterDump) : Answers store .registers (.ok (.registers dump)) store
  | speed (hz : UInt32) : Answers store (.speed hz) (.ok (.speed hz)) store
  | statistics (statistics : Statistics) :
    Answers store .statistics (.ok (.statistics statistics)) store

namespace Console

/-- What a line is answered: it is refused, or its command has an answer. -/
abbrev Reply := Except LineError (Except Error Report)

variable {σ : Type}

/-- Reads a line and runs its command. -/
def answerLine (hardware : Hardware σ) (line : String) (c : Controller σ) :
    Reply × Controller σ :=
  match Command.ofLine line with
  | .error e => (.error e, c)
  | .ok command =>
    let (answer, c) := command.run hardware c
    (.ok answer, c)

/-- Answers lines one after the other. -/
def session (hardware : Hardware σ) : List String → Controller σ → List Reply × Controller σ
  | [], c => ([], c)
  | line :: rest, c =>
    let (reply, c) := answerLine hardware line c
    let (replies, c) := session hardware rest c
    (reply :: replies, c)

/-- The value that a reply says was written to a register. -/
def written? (address register : UInt8) : Reply → Option UInt8
  | .ok (.ok (.write a r value)) => if a = address ∧ r = register then some value else none
  | _ => none

/-- What a register holds after replies: what the latest one says was written, or else `initial`. -/
def latestWritten (address register initial : UInt8) (replies : List Reply) : UInt8 :=
  (replies.filterMap (written? address register)).getLastD initial

theorem latestWritten_cons (address register initial : UInt8) (reply : Reply)
    (replies : List Reply) : latestWritten address register initial (reply :: replies) =
      latestWritten address register ((written? address register reply).getD initial) replies := by
  rw [latestWritten, List.filterMap_cons]
  cases written? address register reply with
  | none => rfl
  | some value => exact List.getLastD_cons ..

end Console

theorem ByteStore.Answers.store_eq {store store' : ByteStore} {command : Command}
    {answer : Except Error Report} (h : store.Answers command answer store')
    (address register : UInt8) : store' address register =
      (store address register).map ((written? address register (.ok answer)).getD ·) := by
  cases h with
  | @write a r value _ known =>
    simp only [put, written?, eq_comm (a := a), eq_comm (a := r)]
    split
    · rename_i hsame
      obtain ⟨old, hold⟩ := Option.isSome_iff_exists.mp known
      rw [hsame.1, hsame.2, hold]
      rfl
    · exact Option.map_id'.symm
  | _ => exact Option.map_id'.symm

/-! ## On a simulated bus without faults -/

namespace Console

open Simulator (hosted)
open Controller

variable {τ : Type} {relax : Simulator × τ → Simulator × τ} {c : Controller (Simulator × τ)}

theorem read_answers (harmless : ∀ s, (relax s).1 = s.1) (fit : c.Fit)
    (address register : UInt8) :
    ∃ answer c', (Command.read address register).run (hosted relax) c = (answer, c') ∧ c'.Fit ∧
      c.bus.1.bytes.Answers (.read address register) answer c'.bus.1.bytes := by
  simp only [Command.run]
  by_cases low : address ≤ highestAddress
  · cases hp : c.bus.1.peripheral? address with
    | some p =>
      obtain ⟨c', hread, fit', hbytes⟩ :=
        readRegister_delivered harmless fit ⟨address, low⟩ register hp
      refine ⟨_, c', by rw [hread], fit', ?_⟩
      rw [hbytes]
      exact .read low (Simulator.bytes_of_attached hp register)
    | none =>
      obtain ⟨c', hsend, fit', hbytes⟩ := send_nobody harmless fit ⟨address, low⟩ [register] hp
      refine ⟨_, c', by rw [readRegister, hsend], fit', ?_⟩
      rw [hbytes]
      exact .readNobody low (Simulator.bytes_of_none hp register)
  · have high : highestAddress < address := UInt8.not_le.mp low
    rw [readRegister, send_high c high]
    exact ⟨_, c, rfl, fit, .readHigh high⟩

theorem write_answers (harmless : ∀ s, (relax s).1 = s.1) (fit : c.Fit)
    (address register value : UInt8) :
    ∃ answer c', (Command.write address register value).run (hosted relax) c = (answer, c') ∧
      c'.Fit ∧
      c.bus.1.bytes.Answers (.write address register value) answer c'.bus.1.bytes := by
  simp only [Command.run, writeRegister]
  by_cases low : address ≤ highestAddress
  · cases hp : c.bus.1.peripheral? address with
    | some p =>
      obtain ⟨c', hsend, fit', hperipherals⟩ :=
        send_delivered harmless fit ⟨address, low⟩ [register, value] hp
      have known := Option.isSome_of_eq_some (Simulator.bytes_of_attached hp register)
      refine ⟨_, c', by rw [hsend], fit', ?_⟩
      rw [Simulator.bytes_congr hperipherals, Simulator.bytes_place_written hp]
      exact .write low known
    | none =>
      obtain ⟨c', hsend, fit', hbytes⟩ :=
        send_nobody harmless fit ⟨address, low⟩ [register, value] hp
      refine ⟨_, c', by rw [hsend], fit', ?_⟩
      rw [hbytes]
      exact .writeNobody low (Simulator.bytes_of_none hp register)
  · have high : highestAddress < address := UInt8.not_le.mp low
    rw [send_high c high]
    exact ⟨_, c, rfl, fit, .writeHigh high⟩

/-- Every command is answered from the bytes that the peripherals hold. -/
theorem command_answers (harmless : ∀ s, (relax s).1 = s.1) (fit : c.Fit) (command : Command) :
    ∃ answer c', command.run (hosted relax) c = (answer, c') ∧ c'.Fit ∧
      c.bus.1.bytes.Answers command answer c'.bus.1.bytes := by
  cases command with
  | read address register => exact read_answers harmless fit address register
  | write address register value => exact write_answers harmless fit address register value
  | registers =>
    obtain ⟨fit', hbytes⟩ := dumpRegisters_fit relax fit
    simp only [Command.run]
    generalize dumpRegisters (hosted relax) c = dumped at fit' hbytes ⊢
    obtain ⟨dump, c'⟩ := dumped
    refine ⟨_, c', rfl, fit', ?_⟩
    rw [hbytes]
    exact .registers dump
  | scan =>
    obtain ⟨c', hscan, fit', hbytes⟩ := scan_attached harmless fit
    simp only [Command.run, hscan]
    refine ⟨_, c', rfl, fit', ?_⟩
    rw [hbytes]
    exact .scan c.bus.1.ascending_attached c.bus.1.mem_attached_iff
  | speed hz =>
    obtain ⟨fit', hbytes⟩ := setSpeed_fit relax fit hz
    refine ⟨_, _, rfl, fit', ?_⟩
    rw [hbytes]
    exact .speed hz
  | statistics => exact ⟨_, c, rfl, fit, .statistics _⟩

theorem answerLine_bytes (harmless : ∀ s, (relax s).1 = s.1) (fit : c.Fit) (line : String) :
    ∃ reply c', answerLine (hosted relax) line c = (reply, c') ∧ c'.Fit ∧
      ∀ address register, c'.bus.1.bytes address register =
        (c.bus.1.bytes address register).map ((written? address register reply).getD ·) := by
  unfold answerLine
  cases Command.ofLine line with
  | error e => exact ⟨_, c, rfl, fit, fun address register => Option.map_id'.symm⟩
  | ok command =>
    obtain ⟨answer, c', hrun, fit', hanswers⟩ := command_answers harmless fit command
    simp only [hrun]
    exact ⟨_, c', rfl, fit', hanswers.store_eq⟩

/-- After any lines a register holds what the latest write to it left there. -/
theorem session_bytes (harmless : ∀ s, (relax s).1 = s.1) (fit : c.Fit) (lines : List String) :
    ∃ replies c', session (hosted relax) lines c = (replies, c') ∧ c'.Fit ∧
      ∀ address register, c'.bus.1.bytes address register =
        (c.bus.1.bytes address register).map (latestWritten address register · replies) := by
  induction lines generalizing c with
  | nil => exact ⟨[], c, rfl, fit, fun address register => Option.map_id'.symm⟩
  | cons line rest ih =>
    obtain ⟨reply, c₁, hline, fit₁, hfirst⟩ := answerLine_bytes harmless fit line
    obtain ⟨replies, c₂, hrest, fit₂, hlast⟩ := ih fit₁
    refine ⟨reply :: replies, c₂, ?_, fit₂, fun address register => ?_⟩
    · simp only [session, hline, hrest]
    · rw [hlast, hfirst, Option.map_map]
      simp only [latestWritten_cons]
      rfl

/-- **Command lines act on a store of bytes.** On a simulator in any reachable state without
faults, with any relax hook that leaves it alone and budgets that are not zero: after any lines the
peripherals hold, byte for byte, what the latest write to it that succeeded says, or what they
held at first. The next line is either refused, and then nothing at all happens, or its command is
answered from that store: a read with the byte, a write by changing it, both with a timeout where
nobody is, and a scan with all who are there; nothing else changes a byte. Reads and writes of an
address above seven bits are refused on any hardware without an access and without being counted. -/
theorem lines_on_byte_store (harmless : ∀ s, (relax s).1 = s.1) (c : Controller (Simulator × τ))
    (reachable : Simulator.Reachable c.config.baseAddress c.bus.1)
    (free : c.bus.1.heldReads = 0) (willing : c.bus.1.nacks = 0)
    (running : c.bus.1.stalled = false) (hbudget : 0 < c.config.timeoutBudget.toNat)
    (hscanBudget : 0 < c.config.scanTimeoutBudget.toNat) (lines : List String) :
    let replies := (session (hosted relax) lines c).1
    let c' := (session (hosted relax) lines c).2
    let store : ByteStore := fun address register =>
      (c.bus.1.bytes address register).map (latestWritten address register · replies)
    c'.bus.1.bytes = store ∧
    (∀ address register,
      (store address register).isSome = (c.bus.1.peripheral? address).isSome) ∧
    (∀ line,
      match Command.ofLine line with
      | .error e => answerLine (hosted relax) line c' = (.error e, c')
      | .ok command => ∃ answer c'', answerLine (hosted relax) line c' = (.ok answer, c'') ∧
        store.Answers command answer c''.bus.1.bytes) ∧
    (∀ (σ : Type) (hardware : Hardware σ) (d : Controller (Recorded σ)) address register value,
      highestAddress < address →
      (Command.read address register).run hardware.recorded d =
        (.error (.outOfRange address.toNat), d) ∧
      (Command.write address register value).run hardware.recorded d =
        (.error (.outOfRange address.toNat), d)) := by
  have fit : c.Fit := ⟨⟨reachable.sound, free, willing, running⟩, hbudget, hscanBudget⟩
  obtain ⟨replies, c', hsession, fit', hbytes⟩ := session_bytes harmless fit lines
  dsimp only
  rw [hsession]
  have hstore : c'.bus.1.bytes = fun address register =>
      (c.bus.1.bytes address register).map (latestWritten address register · replies) :=
    funext fun address => funext (hbytes address)
  refine ⟨hstore, fun address register => ?_, fun line => ?_,
    fun σ hardware d address register value high => ⟨?_, ?_⟩⟩
  · rw [Option.isSome_map, Simulator.bytes, Option.isSome_map]
  · unfold answerLine
    cases Command.ofLine line with
    | error e => rfl
    | ok command =>
      obtain ⟨answer, c'', hrun, -, hanswers⟩ := command_answers harmless fit' command
      rw [hstore] at hanswers
      exact ⟨answer, c'', by simp only [hrun], hanswers⟩
  · simp only [Command.run, readRegister, send_high d high]
    rfl
  · simp only [Command.run, writeRegister, send_high d high]
    rfl

/-- Two writes to one register in different spellings, one to an address that nobody has, and a line
that is no command: a read shows the second of them. -/
theorem lines_on_byte_store_second_write :
    let c : Controller (Simulator × Unit) :=
      Controller.create { timeoutBudget := 1, scanTimeoutBudget := 1 }
        ((Handling.attach 0x50).applied (Simulator.create defaultBase), ())
    let lines := ["write 0x50 16 7", "write 80 0x10 9", "write 0x51 16 1", "erase"]
    Simulator.Reachable c.config.baseAddress c.bus.1 ∧ c.bus.1.heldReads = 0 ∧
    c.bus.1.nacks = 0 ∧ c.bus.1.stalled = false ∧
    (answerLine (hosted id) "READ 0x50 16" (session (hosted id) lines c).2).1 =
      .ok (.ok (.read 0x50 16 9)) := by
  intro c lines
  have harmless (s : Simulator × Unit) : (id s).1 = s.1 := rfl
  have reachable : Simulator.Reachable c.config.baseAddress c.bus.1 :=
    .handle (.attach 0x50) .create
  refine ⟨reachable, rfl, rfl, rfl, ?_⟩
  obtain ⟨-, -, hlines, -⟩ :=
    lines_on_byte_store harmless c reachable rfl rfl rfl (by decide) (by decide) lines
  have hread := hlines "READ 0x50 16"
  rw [show Command.ofLine "READ 0x50 16" = .ok (.read 0x50 16) by decide +kernel] at hread
  obtain ⟨answer, c'', hanswer, hanswers⟩ := hread
  rw [hanswer]
  have hreplies : (session (hosted id) lines c).1 =
      [.ok (.ok (.write 0x50 16 7)), .ok (.ok (.write 0x50 16 9)), .ok (.error .timeout),
        .error (.unknownCommand "erase")] := by decide +kernel
  have hstored : (c.bus.1.bytes 0x50 16).map
      (latestWritten 0x50 16 · (session (hosted id) lines c).1) = some 9 := by
    rw [hreplies]
    decide +kernel
  generalize c''.bus.1.bytes = after at hanswers
  cases hanswers with
  | @read _ _ value _ known => rw [Option.some.inj (known.symm.trans hstored)]
  | readNobody _ nobody => exact absurd (nobody.symm.trans hstored) nofun
  | readHigh high => exact absurd high (by decide)

end Console

end Firmware.I2c
