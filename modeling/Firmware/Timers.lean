/-
  Firmware: software timers. A table of ten slots holds periodic timers; a tick advances every
  running timer by one and fires those whose interval is complete, in slot order. `advance`
  catches up with a monotonic source, one tick per unit since its previous reading.
-/
import Firmware.Error
import Firmware.Journal

namespace Firmware

/-- How many timers a table can run at a time. -/
def timerSlots : Nat := 10

/-- The name of a started timer: the slot it runs in. -/
abbrev TimerId := Fin timerSlots

/-- A running timer with callbacks named by `κ`. -/
structure Timer (κ : Type) where
  interval : UInt32
  callback : κ
  /-- Ticks since the timer was started or last fired. -/
  counter : UInt32
  deriving DecidableEq

namespace Timer

variable {κ : Type}

/-- Whether the next tick completes the interval. An interval of zero is complete on every tick. -/
def due (timer : Timer κ) : Bool := timer.interval ≤ timer.counter + 1

/-- The timer after one more tick. -/
def step (timer : Timer κ) : Timer κ :=
  { timer with counter := if timer.due then 0 else timer.counter + 1 }

end Timer

/-- What ticks fire. -/
@[ext]
structure Fired (κ : Type) where
  /-- How many times a timer fires. -/
  count : Nat := 0
  /-- The callbacks that are called, in order. -/
  callbacks : List κ := []
  deriving DecidableEq

/-- What is fired first and what is fired behind it, together. -/
instance {κ : Type} : Append (Fired κ) where
  append first second :=
    { count := first.count + second.count, callbacks := first.callbacks ++ second.callbacks }

/-- The timers that run, by slot. -/
structure TimerTable (κ : Type) where
  slots : Vector (Option (Timer κ)) timerSlots := Vector.replicate timerSlots none
  /-- The source's reading at the latest `advance`. -/
  lastReading : Option UInt64 := none
  journal : Journal := .empty

/-- What a timer table reports. -/
inductive TimerNote where
  | started (id : TimerId) (interval : UInt32)
  | idleStop (id : TimerId)
  | baseline (reading : UInt64)

def TimerNote.record : TimerNote → Record
  | .started id interval =>
    ⟨.debug, s!"timer {id.val}: started, interval {interval.toNat} ticks"⟩
  | .idleStop id => ⟨.warn, s!"timer {id.val}: stop on inactive slot"⟩
  | .baseline reading => ⟨.debug, s!"timers: tick baseline {reading.toNat}"⟩

namespace TimerTable

variable {κ : Type}

/-- A table in which nothing runs. -/
def empty : TimerTable κ := {}

def note (table : TimerTable κ) (n : TimerNote) : TimerTable κ :=
  { table with journal := table.journal.add n.record }

/-- The least slot in which nothing runs. -/
def freeSlot? (table : TimerTable κ) : Option TimerId :=
  (List.finRange timerSlots).find? fun id => table.slots[id].isNone

/-- Starts a timer that fires every `interval` ticks in the least free slot. -/
def start (table : TimerTable κ) (interval : UInt32) (callback : κ) :
    Except Error TimerId × TimerTable κ :=
  match table.freeSlot? with
  | none => (.error .busy, table)
  | some id =>
    let timer : Timer κ := { interval, callback, counter := 0 }
    (.ok id, { table with slots := table.slots.set id (some timer) }.note (.started id interval))

/-- Stops the timer in a slot; stopping an idle slot is only reported. -/
def stop (table : TimerTable κ) (id : TimerId) : TimerTable κ :=
  match table.slots[id] with
  | some _ => { table with slots := table.slots.set id none }
  | none => table.note (.idleStop id)

/-- Stops the timer in the slot with an index. An index that no slot has is refused. -/
def stopAt (table : TimerTable κ) (index : Nat) : Except Error Unit × TimerTable κ :=
  if h : index < timerSlots then (.ok (), table.stop ⟨index, h⟩)
  else (.error (.outOfRange index), table)

/-- Stops every timer. -/
def stopAll (table : TimerTable κ) : TimerTable κ :=
  { table with slots := Vector.replicate timerSlots none }

def isActive (table : TimerTable κ) (id : TimerId) : Bool := table.slots[id].isSome

/-- Whether a timer runs in the slot with an index, if a slot has it. -/
def isActiveAt (table : TimerTable κ) (index : Nat) : Bool :=
  if h : index < timerSlots then table.isActive ⟨index, h⟩ else false

/-- How many timers run. -/
def activeCount (table : TimerTable κ) : Nat := table.slots.toList.countP Option.isSome

/-- The callbacks that the next tick fires, in slot order. -/
def dueCallbacks (table : TimerTable κ) : List κ :=
  table.slots.toList.filterMap fun slot =>
    slot.bind fun timer => if timer.due then some timer.callback else none

/-- How many timers the next tick fires. -/
def dueCount (table : TimerTable κ) : Nat :=
  table.slots.toList.countP fun slot => slot.any Timer.due

/-- One tick: what is fired and the table after it. -/
def tick (table : TimerTable κ) : Fired κ × TimerTable κ :=
  ({ count := table.dueCount, callbacks := table.dueCallbacks },
    { table with slots := table.slots.map (Option.map Timer.step) })

/-- Several ticks in a row, after `count` firings that called those in `called`, the latest one
first. -/
def ticksFrom (count : Nat) (called : List κ) (table : TimerTable κ) :
    Nat → Fired κ × TimerTable κ
  | 0 => ({ count, callbacks := called.reverse }, table)
  | n + 1 =>
    let (fired, table) := table.tick
    ticksFrom (count + fired.count) (fired.callbacks.reverse ++ called) table n

/-- Several ticks in a row: what they fire and the table after them. -/
def ticks (table : TimerTable κ) (n : Nat) : Fired κ × TimerTable κ := ticksFrom 0 [] table n

/-- Catches up with a source that reads `now`. The first reading is only a baseline; a reading
below the previous one runs no tick but is the next baseline. -/
def advance (table : TimerTable κ) (now : UInt64) : Fired κ × TimerTable κ :=
  match table.lastReading with
  | none => ({}, { table with lastReading := some now }.note (.baseline now))
  | some last => { table with lastReading := some now }.ticks (now.toNat - last.toNat)

end TimerTable

end Firmware
