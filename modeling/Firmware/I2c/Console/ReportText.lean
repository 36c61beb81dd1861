/-
  Firmware: the JSON text of a report, written and read. A report is written as the object of what
  it holds with its kind as a tag, which fails for what is no object. It is read from the members
  of a flat object by their keys, in any order, and every number must fit where it belongs.
-/
import Firmware.I2c.Console.Report
import Firmware.Json.Flat
import Firmware.Json.Tagged

namespace Firmware.I2c.Console

/-- Why a report has no text. -/
inductive ReportError where
  | serialize (fault : Json.TagFault)

/-- The text shown for an error. -/
def ReportError.message : ReportError → String
  | .serialize fault => s!"report serialization failed: {fault.message}"

/-- The phase that a word in a report stands for. -/
def phaseOfWord? (word : String) : Option Phase :=
  [.busFree, .start, .addressPhase, .dataPhase, .stop].find? fun phase => phaseWord phase = word

namespace Report

/-! ## Writing -/

/-- The name by which a kind of report is called where it cannot be written. -/
def variant : Report → String
  | .registers _ => "DiagReport::Registers"
  | .scan _ => "DiagReport::Scan"
  | .read _ _ _ => "DiagReport::Read"
  | .write _ _ _ => "DiagReport::Write"
  | .speed _ => "DiagReport::Speed"
  | .statistics _ => "DiagReport::Stats"

/-- What a report holds besides its kind. -/
def content (report : Report) : Json.Content := .object report.members

/-- The JSON text of a report, or why it has none. -/
def written (report : Report) : Except ReportError String :=
  match Json.tagged report.variant "report" report.kind report.content with
  | .ok members => .ok (String.ofList (Json.compact members))
  | .error fault => .error (.serialize fault)

/-! ## Reading -/

section

variable (members : List (String × Json.Leaf)) (key : String)

/-- The value of a key that must be a word. -/
def text? : Option String :=
  match members.lookup key with
  | some (.word text) => some text
  | _ => none

/-- The value of a key that must be a natural number. -/
def natural? : Option Nat :=
  match members.lookup key with
  | some (.natural value) => some value
  | _ => none

/-- The value of a key that must be a list of natural numbers. -/
def naturals? : Option (List Nat) :=
  match members.lookup key with
  | some (.naturals values) => some values
  | _ => none

/-- The value of a key that must be null or the word for a phase. -/
def phase? : Option (Option Phase) :=
  match members.lookup key with
  | some .null => some none
  | some (.word word) => (phaseOfWord? word).map some
  | _ => none

end

/-- A natural number as a word of a size, if it is not too large. -/
def fit? {α : Type} (size : Nat) (ofNat : (value : Nat) → value < size → α) (value : Nat) :
    Option α :=
  if h : value < size then some (ofNat value h) else none

def byte? (value : Nat) : Option UInt8 := fit? UInt8.size UInt8.ofNatLT value

def word? (value : Nat) : Option UInt32 := fit? UInt32.size UInt32.ofNatLT value

def address? (value : Nat) : Option UInt64 := fit? UInt64.size UInt64.ofNatLT value

/-- The report that members make up. Members with other keys are passed over. -/
def ofMembers? (members : List (String × Json.Leaf)) : Option Report := do
  match ← text? members "report" with
  | "registers" => do
    let base ← (natural? members "base").bind address?
    let status ← (natural? members "status").bind word?
    let control ← (natural? members "control").bind word?
    let clock ← (natural? members "clock").bind word?
    return .registers { base, status, control, clock }
  | "scan" => do
    let present ← (naturals? members "present").bind (·.mapM byte?)
    return .scan present
  | "read" => do
    let address ← (natural? members "address").bind byte?
    let register ← (natural? members "register").bind byte?
    let value ← (natural? members "value").bind byte?
    return .read address register value
  | "write" => do
    let address ← (natural? members "address").bind byte?
    let register ← (natural? members "register").bind byte?
    let value ← (natural? members "value").bind byte?
    return .write address register value
  | "speed" => do
    let hz ← (natural? members "hz").bind word?
    return .speed hz
  | "stats" => do
    let transactions ← natural? members "transactions"
    let starts ← natural? members "starts"
    let stops ← natural? members "stops"
    let timeouts ← natural? members "timeouts"
    let retries ← natural? members "retries"
    let lastFailure ← phase? members "last_failure"
    return .statistics { transactions, starts, stops, timeouts, retries, lastFailure }
  | _ => none

/-- The report with a text. -/
def ofJson? (text : String) : Option Report := (Json.flat? text).bind ofMembers?

end Report

end Firmware.I2c.Console
