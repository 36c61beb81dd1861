/-
  Firmware: the reports of the diagnostic console and their JSON text. Every report names its
  kind in its first member.
-/
import Firmware.I2c.Statistics
import Firmware.Json.Compact

namespace Firmware.I2c.Console

/-- The controller's registers at one time. The data register is not among them, for reading it
consumes a byte. -/
structure RegisterDump where
  base : UInt64
  status : UInt32
  control : UInt32
  clock : UInt32
  deriving DecidableEq

/-- What a diagnostic command answers. -/
inductive Report where
  | registers (dump : RegisterDump)
  | scan (present : List UInt8)
  | read (address register value : UInt8)
  | write (address register value : UInt8)
  | speed (hz : UInt32)
  | statistics (statistics : Statistics)
  deriving DecidableEq

/-- The word for a phase in a report. -/
def phaseWord : Phase → String
  | .busFree => "bus_free"
  | .start => "start"
  | .addressPhase => "address_phase"
  | .dataPhase => "data_phase"
  | .stop => "stop"

namespace Report

def kind : Report → String
  | .registers _ => "registers"
  | .scan _ => "scan"
  | .read _ _ _ => "read"
  | .write _ _ _ => "write"
  | .speed _ => "speed"
  | .statistics _ => "stats"

/-- The members of a report behind its kind. -/
def members : Report → List (String × Json.Leaf)
  | .registers dump =>
    [("base", .natural dump.base.toNat), ("status", .natural dump.status.toNat),
     ("control", .natural dump.control.toNat), ("clock", .natural dump.clock.toNat)]
  | .scan present => [("present", .naturals (present.map UInt8.toNat))]
  | .read address register value | .write address register value =>
    [("address", .natural address.toNat), ("register", .natural register.toNat),
     ("value", .natural value.toNat)]
  | .speed hz => [("hz", .natural hz.toNat)]
  | .statistics s =>
    [("transactions", .natural s.transactions), ("starts", .natural s.starts),
     ("stops", .natural s.stops), ("timeouts", .natural s.timeouts),
     ("retries", .natural s.retries),
     ("last_failure", match s.lastFailure with
       | some phase => .word (phaseWord phase)
       | none => .null)]

/-- The JSON text of a report. -/
def toJson (report : Report) : String :=
  String.ofList (Json.compact (("report", .word report.kind) :: report.members))

end Report

end Firmware.I2c.Console
