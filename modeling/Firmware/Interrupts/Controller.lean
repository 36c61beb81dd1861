/-
  Firmware: interrupt controllers. A controller has a mask bit per line that it can route and
  one global state that says whether interrupts are taken at all. `MaskArray` is the controller
  in memory: its masks are a list and its global state a flag.
-/
import Firmware.Error
import Firmware.Ports

namespace Firmware

/-- What the interrupt table needs of a platform. Only a controller behind scripted ports can
stop the run. -/
class InterruptController (κ : Type) where
  /-- Sets or clears the mask bit of a line; a line that cannot be routed is out of range. -/
  setMasked : Nat → Bool → κ → Except PortFault (Except Error Unit) × κ
  /-- Answers the global state and stops taking interrupts. -/
  saveAndDisable : κ → UInt64 × κ
  /-- Writes back a global state. -/
  restore : UInt64 → κ → κ
  /-- Whether interrupts are taken. -/
  enabled : κ → Bool

/-- A controller in memory with one mask bit per routable line. -/
structure MaskArray where
  masked : List Bool
  enabled : Bool
  deriving DecidableEq

namespace MaskArray

/-- A controller that routes `lines` lines, all of them masked. -/
def create (lines : Nat) (enabled : Bool) : MaskArray := ⟨List.replicate lines true, enabled⟩

/-- The lines that are not masked, in ascending order. -/
def unmasked (controller : MaskArray) : List Nat :=
  controller.masked.zipIdx.filterMap fun (masked, line) => if masked then none else some line

instance : InterruptController MaskArray where
  setMasked line masked controller :=
    if line < controller.masked.length then
      (.ok (.ok ()), { controller with masked := controller.masked.set line masked })
    else (.ok (.error (.outOfRange line)), controller)
  saveAndDisable controller :=
    (if controller.enabled then 1 else 0, { controller with enabled := false })
  restore flags controller := { controller with enabled := flags != 0 }
  enabled controller := controller.enabled

end MaskArray

end Firmware
