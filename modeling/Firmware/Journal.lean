/-
  Firmware: the journal. Components report what they do as records, each with a level and a
  text; a journal keeps them in the order in which they were added.
-/

namespace Firmware

/-- How much a record matters. -/
inductive Level where
  | debug
  | info
  | warn
  | error
  deriving DecidableEq

/-- The name of a level as it is shown. -/
def Level.name : Level → String
  | .debug => "DEBUG"
  | .info => "INFO"
  | .warn => "WARN"
  | .error => "ERROR"

/-- One thing that a component reported. -/
structure Record where
  level : Level
  text : String
  deriving DecidableEq

/-- What a component has reported so far. -/
structure Journal where
  /-- The records, the latest one first. -/
  latestFirst : List Record := []

namespace Journal

/-- Nothing reported yet. -/
def empty : Journal := {}

def add (journal : Journal) (record : Record) : Journal := ⟨record :: journal.latestFirst⟩

/-- The records in the order in which they were added. -/
def records (journal : Journal) : List Record := journal.latestFirst.reverse

/-- Adds records in their order. -/
def addAll (journal : Journal) (records : List Record) : Journal :=
  ⟨records.reverse ++ journal.latestFirst⟩

@[simp] theorem records_empty : empty.records = [] := rfl

@[simp] theorem records_add (journal : Journal) (record : Record) :
    (journal.add record).records = journal.records ++ [record] := by
  simp [add, records]

@[simp] theorem records_addAll (journal : Journal) (records : List Record) :
    (journal.addAll records).records = journal.records ++ records := by
  simp [addAll, Journal.records]

end Journal

end Firmware
