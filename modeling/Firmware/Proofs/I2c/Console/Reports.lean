/-
  Firmware: a report is known from its text. Its members hold no text that needs an escape, so they
  are found again in what is written, and by their keys the report is put together from them, to
  the last address of a scan: `reports_decodable`.
-/
import Firmware.I2c.Console.ReportText
import Firmware.Proofs.Json.Flat

namespace Firmware.I2c.Console

open Json

theorem phaseOfWord?_phaseWord (phase : Phase) : phaseOfWord? (phaseWord phase) = some phase := by
  cases phase <;> rfl

theorem plain_phaseWord (phase : Phase) : ∀ c ∈ (phaseWord phase).toList, Plain c :=
  plain_of_all (by cases phase <;> rfl)

namespace Report

/-! ## Numbers that fit -/

theorem fit?_of_lt {α : Type} {size value : Nat} (ofNat : (value : Nat) → value < size → α)
    (h : value < size) : fit? size ofNat value = some (ofNat value h) :=
  dif_pos h

@[simp] theorem byte?_toNat (byte : UInt8) : byte? byte.toNat = some byte := by
  rw [byte?, fit?_of_lt _ byte.toNat_lt_size, UInt8.ofNatLT_toNat]

@[simp] theorem word?_toNat (word : UInt32) : word? word.toNat = some word := by
  rw [word?, fit?_of_lt _ word.toNat_lt_size, UInt32.ofNatLT_toNat]

@[simp] theorem address?_toNat (address : UInt64) : address? address.toNat = some address := by
  rw [address?, fit?_of_lt _ address.toNat_lt_size, UInt64.ofNatLT_toNat]

theorem mapM_byte? (bytes : List UInt8) : (bytes.map UInt8.toNat).mapM byte? = some bytes := by
  induction bytes with
  | nil => rfl
  | cons byte rest ih =>
    rw [List.map_cons, List.mapM_cons, byte?_toNat, ih]
    rfl

/-! ## Members -/

/-- A report is put together again from its kind and its members. -/
theorem ofMembers?_members (report : Report) :
    ofMembers? (("report", .word report.kind) :: report.members) = some report := by
  cases report with
  | scan present =>
    -- the only member of any length
    have hpresent := mapM_byte? present
    rw [List.mapM_map] at hpresent
    simp [ofMembers?, text?, naturals?, members, kind, List.lookup_cons, hpresent]
  | statistics s =>
    obtain ⟨transactions, starts, stops, timeouts, retries, lastFailure⟩ := s
    cases lastFailure with
    | none => simp [ofMembers?, text?, natural?, phase?, members, kind, List.lookup_cons]
    | some phase =>
      simp [ofMembers?, text?, natural?, phase?, members, kind, List.lookup_cons,
        phaseOfWord?_phaseWord]
  | _ => simp [ofMembers?, text?, natural?, members, kind, List.lookup_cons]

theorem plain_kind (report : Report) : ∀ c ∈ report.kind.toList, Plain c := by
  refine plain_of_all ?_
  cases report <;> simp only [kind] <;> decide

theorem plain_keys (report : Report) :
    ∀ member ∈ report.members, ∀ c ∈ member.1.toList, Plain c := by
  have hall : (report.members.all fun member =>
      member.1.toList.all fun c => decide (Plain c)) = true := by
    cases report <;> simp only [members, List.all_cons, List.all_nil] <;> decide
  intro member hmem
  exact plain_of_all (List.all_eq_true.mp hall member hmem)

theorem plain_leaves (report : Report) : ∀ member ∈ report.members, member.2.Plain := by
  cases report with
  | statistics s =>
    obtain ⟨transactions, starts, stops, timeouts, retries, lastFailure⟩ := s
    cases lastFailure with
    | none => simp [members, Leaf.Plain]
    | some phase => simpa [members, Leaf.Plain] using plain_phaseWord phase
  | _ => simp [members, Leaf.Plain]

theorem plain_written (report : Report) :
    ∀ member ∈ ("report", Leaf.word report.kind) :: report.members,
      (∀ c ∈ member.1.toList, Plain c) ∧ member.2.Plain := by
  have htag : ∀ c ∈ "report".toList, Plain c := plain_of_all (by decide)
  intro member hmem
  rcases List.mem_cons.mp hmem with rfl | hmem
  · exact ⟨htag, report.plain_kind⟩
  · exact ⟨report.plain_keys member hmem, report.plain_leaves member hmem⟩

/-! ## Texts -/

/-- What a report holds are members, so there is a place for its kind. -/
theorem written_eq (report : Report) : report.written = .ok report.toJson := rfl

theorem ofJson?_toJson (report : Report) : ofJson? report.toJson = some report := by
  rw [ofJson?, toJson, flat?_compact report.plain_written]
  exact report.ofMembers?_members

/-- **A report is known from its text.** Every report has a JSON text, from which it is read back
with its kind and with all that it holds: every number, every address that a scan found, and the
phase of the last failure or that there was none. So no two reports are written alike. -/
theorem reports_decodable :
    (∀ report : Report, report.written = .ok report.toJson ∧
      ofJson? report.toJson = some report) ∧
    Function.Injective written := by
  constructor
  · intro report
    exact ⟨report.written_eq, report.ofJson?_toJson⟩
  · intro first second h
    rw [written_eq, written_eq] at h
    have htext : first.toJson = second.toJson := Except.ok.inj h
    have hread := first.ofJson?_toJson
    rw [htext, ofJson?_toJson] at hread
    exact (Option.some.inj hread).symm

end Report

end Firmware.I2c.Console
