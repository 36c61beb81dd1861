/-
  Firmware: the platform. It owns the one interrupt table and the one timer table of the
  system, from start-up to shutdown. Shutdown masks and removes what is registered, with
  interrupts off, stops the timers and hands the controller back.
-/
import Firmware.Interrupts.PcController
import Firmware.Interrupts.Table
import Firmware.Timers

namespace Firmware

/-- The interrupt table and the timer table of a system. -/
structure Platform (κ η τ : Type) where
  interrupts : InterruptTable κ η
  timers : TimerTable τ

/-- What a platform reports. -/
inductive PlatformNote where
  | remapped
  | started
  | shutDown (handlers : Nat)

def PlatformNote.record : PlatformNote → Record
  | .remapped =>
    let first := MaskPair.baseVector.toNat
    ⟨.info, s!"PIC remapped to vectors {first}..{first + MaskPair.routedLines}"⟩
  | .started => ⟨.info, "HAL context initialized"⟩
  | .shutDown handlers => ⟨.info, s!"HAL context shut down ({handlers} handlers removed)"⟩

namespace Platform

variable {κ η τ : Type}

/-- Starts a system over a controller and goes on with a journal. -/
def start (controller : κ) (journal : Journal := .empty) : Platform κ η τ where
  interrupts := .create controller (journal.add PlatformNote.started.record)
  timers := .empty

/-- Starts a PC: its controllers are programmed for the vectors from 32 on first. -/
def startPc (controller : PcController) : Except PortFault (Platform PcController η τ) :=
  match MaskPair.remap MaskPair.baseVector (MaskPair.baseVector + 8) controller.ports with
  | .error fault => .error fault
  | .ok ports =>
    .ok (start { controller with ports } (Journal.empty.add PlatformNote.remapped.record))

variable [InterruptController κ]

/-- Masks and removes lines one after the other. A line that the controller cannot route was
never unmasked, so its refusal is ignored. -/
def retire : List Nat → InterruptTable κ η → Except PortFault Unit × InterruptTable κ η
  | [], table => (.ok (), table)
  | line :: rest, table =>
    match table.disable line with
    | (.error fault, table) => (.error fault, table)
    | (.ok _, table) => retire rest (table.remove line)

/-- Masks and removes every registered line with interrupts off and stops every timer. What is
left is the controller, in the table, and the journal. -/
def shutdown (platform : Platform κ η τ) : Except PortFault Unit × Platform κ η τ :=
  let lines := platform.interrupts.registeredLines
  match platform.interrupts.criticalSection (retire lines) with
  | (.error fault, interrupts) => (.error fault, { platform with interrupts })
  | (.ok (), interrupts) =>
    let journal := interrupts.journal.add (PlatformNote.shutDown lines.length).record
    (.ok (), { interrupts := { interrupts with journal }, timers := platform.timers.stopAll })

end Platform

end Firmware
