/-
  Firmware: a configuration is written so that it reads back. Its text is a document whose members
  name every field once, with the value that the field has, so the defaults are overridden by the
  configuration itself and only the check is left to refuse it.
-/
import Firmware.Proofs.I2c.Configuration
import Firmware.Proofs.Json.Compact

namespace Firmware.I2c.Config

open Json

/-- The members that a configuration is written as. -/
def written (config : Config) : List (String × Leaf) :=
  Field.all.map fun field => (field.key, .natural (field.get config))

theorem plain_written (config : Config) :
    ∀ member ∈ config.written, (∀ c ∈ member.1.toList, Plain c) ∧ member.2.Plain := by
  have hkey (field : Field) : (field.key.toList.all fun c => decide (Plain c)) = true := by
    cases field <;> decide
  intro member hmem
  obtain ⟨field, -, rfl⟩ := List.mem_map.mp hmem
  exact ⟨plain_of_all (hkey field), trivial⟩

/-- Every field is written once, with its value. -/
theorem among_written (config : Config) (field : Field) :
    field.among (config.written.map fun member => (member.1, member.2.natural?)) =
      [some (field.get config)] := by
  cases field <;> rfl

/-- The text of a configuration, read before it is checked. -/
theorem ofOutline?_toJson (config : Config) :
    (Outline.ofText? config.toJson).bind ofOutline? = some config := by
  obtain ⟨document, given, htext, hgives, hgiven⟩ := compact_document config.plain_written
  have hsettles (field : Field) :
      field.Settles (field.said given) (field.get {}) (field.get config) := by
    rw [Field.said, hgiven, among_written]
    exact .replaced _ (Field.get_lt_bound config field)
  have hjson : config.toJson = document.text := htext.symm
  rw [hjson, ofText?_document, ofTokens?_object hgives]
  exact ofMembers?_of_settles hsettles

/-- **A configuration reads back from its own text**, every value as it was; only what a controller
cannot run with is refused, an unaligned base before a budget of zero. -/
theorem ofJson_toJson (config : Config) :
    (Outline.ofText? config.toJson).bind ofOutline? = some config ∧
    ofJson config.toJson =
      (if config.baseAddress % 4 ≠ 0 then .error (.unalignedBase config.baseAddress)
      else if config.timeoutBudget = 0 ∨ config.scanTimeoutBudget = 0 then .error .zeroTimeout
      else .ok config) ∧
    ofJson config.toJson ≠ .error .parse := by
  have hread := ofOutline?_toJson config
  have hchecked : ofJson config.toJson = config.validate.map fun _ => config := by
    rw [ofJson, hread]
  rw [validate] at hchecked
  refine ⟨hread, ?_, ?_⟩
  · rw [hchecked]
    split
    · rfl
    · split <;> rfl
  · intro hparse
    rw [hchecked] at hparse
    split at hparse
    · cases hparse
    · split at hparse <;> cases hparse

end Firmware.I2c.Config
