/-
  Firmware: running diagnostic commands on a controller.
-/
import Firmware.I2c.Console.Command
import Firmware.I2c.Console.Report
import Firmware.I2c.Controller

namespace Firmware.I2c.Console

variable {σ : Type}

/-- What a register dump reports, line by line. -/
def RegisterDump.records (dump : RegisterDump) : List Record :=
  let status := StatusFlags.ofWord dump.status
  let control := ControlFlags.ofWord dump.control
  [⟨.info, s!"i2c@{Numeral.hex 0 dump.base.toNat} registers:"⟩,
   ⟨.info, s!"  status  {Numeral.hex 8 dump.status.toNat} {status.text}"⟩,
   ⟨.info, s!"  control {Numeral.hex 8 dump.control.toNat} {control.text}"⟩,
   ⟨.info, s!"  clock   {dump.clock.toNat} Hz"⟩]

/-- Reads the controller's registers and reports them. -/
def dumpRegisters (hardware : Hardware σ) (c : Controller σ) : RegisterDump × Controller σ :=
  let (status, c) := c.readRegisterAt hardware statusOffset
  let (control, c) := c.readRegisterAt hardware controlOffset
  let (clock, c) := c.readRegisterAt hardware clockOffset
  let dump := { base := c.config.baseAddress, status, control, clock }
  (dump, { c with journal := c.journal.addAll dump.records })

/-- Runs a command. -/
def Command.run (hardware : Hardware σ) (command : Command) (c : Controller σ) :
    Except Error Report × Controller σ :=
  match command with
  | .registers =>
    let (dump, c) := dumpRegisters hardware c
    (.ok (.registers dump), c)
  | .scan =>
    let (present, c) := c.scan hardware
    (.ok (.scan (present.map Address.value)), c)
  | .read address register =>
    let (result, c) := c.readRegister hardware address register
    (result.map (.read address register), c)
  | .write address register value =>
    let (result, c) := c.writeRegister hardware address register value
    (result.map fun _ => .write address register value, c)
  | .speed hz => (.ok (.speed hz), c.setSpeed hardware hz)
  | .statistics => (.ok (.statistics c.statistics), c)

end Firmware.I2c.Console
