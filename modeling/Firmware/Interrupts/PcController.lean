/-
  Firmware: the interrupt controller of a PC, made of the mask pair behind its ports and the
  interrupt bit of the flags word.
-/
import Firmware.Interrupts.Controller
import Firmware.Interrupts.FlagsWord
import Firmware.Interrupts.MaskPair

namespace Firmware

/-- The ports of the mask pair and the flags word of the processor. -/
structure PcController where
  ports : PortScript
  flags : FlagsWord
  /-- How many interrupts were acknowledged. -/
  acknowledged : Nat := 0

namespace PcController

/-- Tells the mask pair that the interrupt of a line was handled. -/
def acknowledge (controller : PcController) (line : Nat) : PcController :=
  { controller with
    ports := MaskPair.acknowledge line controller.ports
    acknowledged := controller.acknowledged + 1 }

instance : InterruptController PcController where
  setMasked line masked controller :=
    match MaskPair.setMasked line masked controller.ports with
    | .error fault => (.error fault, controller)
    | .ok (result, ports) => (.ok result, { controller with ports })
  saveAndDisable controller :=
    let (word, flags) := controller.flags.saveAndClear
    (word, { controller with flags })
  restore word controller := { controller with flags := controller.flags.restore word }
  enabled controller := controller.flags.enabled

end PcController

end Firmware
