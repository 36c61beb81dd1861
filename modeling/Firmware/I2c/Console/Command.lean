/-
  Firmware: the command lines of the diagnostic console. A line is split into words; the first
  names a command, in either case, and the others are its arguments. Numerals are decimal or,
  behind `0x`, hexadecimal, and must fit their argument. The leftmost fault of a line is the one
  that is reported.
-/
import Firmware.Text.Blank
import Firmware.Text.Numeral

namespace Firmware.I2c.Console

/-- A diagnostic command. -/
inductive Command where
  | registers
  | scan
  | read (address register : UInt8)
  | write (address register value : UInt8)
  | speed (hz : UInt32)
  | statistics
  deriving DecidableEq

/-- Why a command line is refused. -/
inductive LineError where
  | empty
  | unknownCommand (name : String)
  | missingArgument (name : String)
  | invalidNumber (word : String)
  | unexpectedArgument (word : String)
  deriving DecidableEq

/-- The text shown for a refused line. -/
def LineError.message : LineError → String
  | .empty => "empty command"
  | .unknownCommand name => "unknown command: " ++ name
  | .missingArgument name => "missing argument: " ++ name
  | .invalidNumber word => "invalid number: " ++ word
  | .unexpectedArgument word => "unexpected argument: " ++ word

/-! ## Numerals -/

/-- What follows a plus sign, if there is one. -/
def dropPlus : List Char → List Char
  | '+' :: rest => rest
  | cs => cs

/-- The value of a numeral. -/
def numeral? : List Char → Option Nat
  | '0' :: 'x' :: rest => Numeral.hexValue? (dropPlus rest)
  | '0' :: 'X' :: rest => Numeral.hexValue? (dropPlus rest)
  | cs => Numeral.decimalValue? (dropPlus cs)

/-- The value of a word that is to be a numeral below `bound`. -/
def number (bound : Nat) (word : String) : Except LineError Nat :=
  match numeral? word.toList with
  | some n => if n < bound then .ok n else .error (.invalidNumber word)
  | none => .error (.invalidNumber word)

/-! ## Lines -/

/-- The arguments of a command: their names and the bounds below which their values lie. -/
abbrev Parameters := List (String × Nat)

/-- Reads arguments from left to right and answers their values; none may be left over. -/
def arguments : Parameters → List String → Except LineError (List Nat)
  | [], [] => .ok []
  | [], word :: _ => .error (.unexpectedArgument word)
  | (name, _) :: _, [] => .error (.missingArgument name)
  | (_, bound) :: parameters, word :: words =>
    match number bound word with
    | .error e => .error e
    | .ok n => (arguments parameters words).map (n :: ·)

/-- The names of the commands. -/
inductive Name where
  | regs
  | scan
  | read
  | write
  | speed
  | stats
  deriving DecidableEq

namespace Name

def text : Name → String
  | .regs => "regs"
  | .scan => "scan"
  | .read => "read"
  | .write => "write"
  | .speed => "speed"
  | .stats => "stats"

def all : List Name := [.regs, .scan, .read, .write, .speed, .stats]

def ofText? (text : String) : Option Name := all.find? fun name => name.text = text

def parameters : Name → Parameters
  | .regs | .scan | .stats => []
  | .read => [("addr", UInt8.size), ("reg", UInt8.size)]
  | .write => [("addr", UInt8.size), ("reg", UInt8.size), ("value", UInt8.size)]
  | .speed => [("hz", UInt32.size)]

/-- The command with a name and the values of its arguments. -/
def command : Name → List Nat → Command
  | .regs, _ => .registers
  | .scan, _ => .scan
  | .stats, _ => .statistics
  | .read, values => .read (byte values 0) (byte values 1)
  | .write, values => .write (byte values 0) (byte values 1) (byte values 2)
  | .speed, values => .speed (.ofNat (values.getD 0 0))
where
  byte (values : List Nat) (i : Nat) : UInt8 := .ofNat (values.getD i 0)

end Name

/-- A word with its ASCII letters in lower case. -/
def lowerCase (word : String) : String := String.ofList (word.toList.map Char.toLower)

/-- Reads a command line given as words. -/
def Command.ofWords : List String → Except LineError Command
  | [] => .error .empty
  | first :: rest =>
    let name := lowerCase first
    match Name.ofText? name with
    | none => .error (.unknownCommand name)
    | some name => (arguments name.parameters rest).map name.command

/-- Reads a command line. -/
def Command.ofLine (line : String) : Except LineError Command :=
  Command.ofWords (words line)

end Firmware.I2c.Console
