/-
  Firmware: the configuration of an I2C controller. It is read from JSON text, either an object
  whose members override the defaults by name or an array that gives the fields in their order,
  and written as compact JSON. A controller can run with an aligned base and non-zero budgets.
-/
import Firmware.I2c.RegisterMap
import Firmware.I2c.Speed

namespace Firmware.I2c

@[ext]
structure Config where
  /-- The address of the first register. -/
  baseAddress : UInt64 := defaultBase
  /-- Looks at the status allowed per wait of a transfer. -/
  timeoutBudget : UInt32 := 1000000
  /-- Looks at the status allowed per wait of a scan. -/
  scanTimeoutBudget : UInt32 := 1000
  /-- Attempts that a bound target makes per transfer. -/
  maxRetries : UInt32 := 3
  /-- The clock rate that starting the controller sets. -/
  defaultSpeedHz : UInt32 := Speed.standard.hz
  deriving DecidableEq

/-- Why a configuration is refused. -/
inductive ConfigError where
  /-- The text is not JSON of the right shape. -/
  | parse
  | zeroTimeout
  | unalignedBase (base : UInt64)
  deriving DecidableEq

/-- The text shown for a refused configuration; a text that cannot be read has none. -/
def ConfigError.message? : ConfigError → Option String
  | .parse => none
  | .zeroTimeout => some "timeout budget must be non-zero"
  | .unalignedBase base =>
    some s!"base address {Numeral.hex 0 base.toNat} is not 4-byte aligned"

namespace Config

/-- Checks the values that a controller cannot run with, the alignment first. -/
def validate (config : Config) : Except ConfigError Unit :=
  if config.baseAddress % 4 ≠ 0 then .error (.unalignedBase config.baseAddress)
  else if config.timeoutBudget = 0 ∨ config.scanTimeoutBudget = 0 then .error .zeroTimeout
  else .ok ()

/-! ## Fields -/

/-- The fields of a configuration. -/
inductive Field where
  | baseAddress
  | timeoutBudget
  | scanTimeoutBudget
  | maxRetries
  | defaultSpeedHz
  deriving DecidableEq

namespace Field

/-- The fields in the order of their declaration. -/
def all : List Field :=
  [.baseAddress, .timeoutBudget, .scanTimeoutBudget, .maxRetries, .defaultSpeedHz]

def key : Field → String
  | .baseAddress => "base_address"
  | .timeoutBudget => "timeout_budget"
  | .scanTimeoutBudget => "scan_timeout_budget"
  | .maxRetries => "max_retries"
  | .defaultSpeedHz => "default_speed_hz"

def ofKey? (key : String) : Option Field := all.find? fun field => field.key = key

/-- The bound below which the values of a field lie. -/
def bound : Field → Nat
  | .baseAddress => UInt64.size
  | _ => UInt32.size

/-- The value of a field. -/
def get (config : Config) : Field → Nat
  | .baseAddress => config.baseAddress.toNat
  | .timeoutBudget => config.timeoutBudget.toNat
  | .scanTimeoutBudget => config.scanTimeoutBudget.toNat
  | .maxRetries => config.maxRetries.toNat
  | .defaultSpeedHz => config.defaultSpeedHz.toNat

/-- Stores a value that fits the field. -/
def set (config : Config) (field : Field) (value : Nat) : Config :=
  match field with
  | .baseAddress => { config with baseAddress := .ofNat value }
  | .timeoutBudget => { config with timeoutBudget := .ofNat value }
  | .scanTimeoutBudget => { config with scanTimeoutBudget := .ofNat value }
  | .maxRetries => { config with maxRetries := .ofNat value }
  | .defaultSpeedHz => { config with defaultSpeedHz := .ofNat value }

end Field

/-- Overrides a field by a value of JSON text, which must be a natural number that fits. -/
def assign? (config : Config) (field : Field) : Json.Item → Option Config
  | .natural value => if value < field.bound then some (field.set config value) else none
  | _ => none

/-! ## Reading -/

/-- Overrides fields by the members of an object. A key that names no field is ignored; a field
named again, one of those in `seen`, spoils the text. -/
def ofMembers? (config : Config) (seen : List Field) : List Json.Member → Option Config
  | [] => some config
  | (none, _) :: _ => none
  | (some key, item) :: rest =>
    match Field.ofKey? key with
    | none => ofMembers? config seen rest
    | some field =>
      if field ∈ seen then none
      else
        match config.assign? field item with
        | none => none
        | some config => ofMembers? config (field :: seen) rest

/-- Overrides fields, in order, by the elements of an array; there may be fewer elements. -/
def ofElements? (config : Config) : List Field → List Json.Item → Option Config
  | _, [] => some config
  | [], _ :: _ => none
  | field :: fields, item :: rest =>
    match config.assign? field item with
    | none => none
    | some config => ofElements? config fields rest

/-- The configuration that an outline describes. -/
def ofOutline? : Json.Outline → Option Config
  | .object members => ofMembers? {} [] members
  | .array elements => ofElements? {} Field.all elements
  | _ => none

/-- Reads a configuration and checks it. -/
def ofJson (text : String) : Except ConfigError Config :=
  match (Json.Outline.ofText? text).bind ofOutline? with
  | none => .error .parse
  | some config => config.validate.map fun _ => config

/-! ## Writing -/

/-- The compact JSON text of a configuration, with the fields in the order of declaration. -/
def toJson (config : Config) : String :=
  String.ofList (Json.compact
    (Field.all.map fun field => (field.key, .natural (field.get config))))

end Config

end Firmware.I2c
