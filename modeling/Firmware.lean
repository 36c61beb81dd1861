import Firmware.Device.Basic
import Firmware.Device.Driver
import Firmware.Device.Handle
import Firmware.Device.Operation
import Firmware.Device.Probe
import Firmware.Error
import Firmware.I2c.Address
import Firmware.I2c.Bench
import Firmware.I2c.Config
import Firmware.I2c.Console.Command
import Firmware.I2c.Console.Report
import Firmware.I2c.Console.ReportText
import Firmware.I2c.Console.Run
import Firmware.I2c.Controller
import Firmware.I2c.Operation
import Firmware.I2c.RegisterMap
import Firmware.I2c.Simulator
import Firmware.I2c.Speed
import Firmware.I2c.Statistics
import Firmware.I2c.Target
import Firmware.I2c.Transaction
import Firmware.Interrupts.Controller
import Firmware.Interrupts.FlagsWord
import Firmware.Interrupts.MaskPair
import Firmware.Interrupts.Operation
import Firmware.Interrupts.PcController
import Firmware.Interrupts.Table
import Firmware.Journal
import Firmware.Json.Compact
import Firmware.Json.Flat
import Firmware.Json.Outline
import Firmware.Json.Tagged
import Firmware.Json.Token
import Firmware.Platform
import Firmware.Polling
import Firmware.Ports
import Firmware.Ports.Operation
import Firmware.Ports.Tape
import Firmware.Proofs.I2c.Agreement
import Firmware.Proofs.I2c.Eeprom
import Firmware.Proofs.I2c.Reachable
import Firmware.Proofs.I2c.SimulatorSteps
import Firmware.Proofs.Polling
import Firmware.Registers.Basic
import Firmware.Registers.Cells
import Firmware.Registers.Hardware
import Firmware.Registers.Memory
import Firmware.Registers.Operation
import Firmware.Registers.Queued
import Firmware.Registers.Recorded
import Firmware.Text.Blank
import Firmware.Text.Numeral
import Firmware.Timers
import Firmware.Proofs.I2c.SimulatedTransfer
import Firmware.Proofs.I2c.EepromBus
import Firmware.Proofs.I2c.Retries
import Firmware.Proofs.I2c.Scan
import Firmware.Proofs.I2c.Operations
import Firmware.Proofs.Recording
import Firmware.Proofs.I2c.Brackets
import Firmware.Proofs.I2c.Conditions
import Firmware.Proofs.I2c.TransferAccesses
import Firmware.Proofs.I2c.Handshake
import Firmware.Proofs.Device.Calls
import Firmware.Proofs.Device.Watched
import Firmware.Proofs.Device.Status
import Firmware.Proofs.I2c.RoundTrip
import Firmware.Proofs.I2c.ByteStore
import Firmware.Proofs.I2c.Console.Session
import Firmware.Proofs.Interrupts.Table
import Firmware.Proofs.Interrupts.History
import Firmware.Proofs.Events
import Firmware.Proofs.Interrupts.Counted
import Firmware.Proofs.Interrupts.CriticalSections
import Firmware.Proofs.Interrupts.Registrations
import Firmware.Proofs.Interrupts.Controllers
import Firmware.Proofs.Ports
import Firmware.Proofs.Interrupts.MaskPair
import Firmware.Proofs.Interrupts.Masks
import Firmware.Timers.Operation
import Firmware.Platform.Operation
import Firmware.Proofs.Interrupts.Completion
import Firmware.Proofs.Platform.Shutdown
import Firmware.Proofs.Timers.Ticks
import Firmware.Proofs.Timers.Schedule
import Firmware.Proofs.Timers.CatchUp
import Firmware.Proofs.Json.Grammar
import Firmware.Proofs.Json.Lexing
import Firmware.Proofs.Json.Outlines
import Firmware.Proofs.Json.Texts
import Firmware.Proofs.Json.Strictness
import Firmware.Proofs.Json.Compact
import Firmware.Proofs.I2c.Configuration
import Firmware.Proofs.I2c.ConfigurationTexts
import Firmware.Proofs.I2c.ConfigurationRoundTrip
import Firmware.Proofs.Text.Words
import Firmware.Proofs.Text.Numerals
import Firmware.Proofs.I2c.Console.Grammar
import Firmware.Proofs.I2c.Outcomes
import Firmware.Proofs.I2c.Accounts
import Firmware.Proofs.I2c.Counters
import Firmware.Proofs.I2c.Series
import Firmware.Proofs.I2c.TargetStatus
import Firmware.Proofs.I2c.RawAccesses
import Firmware.Proofs.I2c.Undisturbed
import Firmware.Proofs.I2c.Preloading
import Firmware.Proofs.I2c.Restarts
import Firmware.Proofs.I2c.Waits
import Firmware.Proofs.I2c.DocumentedBits
import Firmware.Proofs.I2c.TransferSteps
import Firmware.Proofs.I2c.Yielding
import Firmware.Proofs.I2c.Console.Faults
import Firmware.Proofs.Interrupts.Cascade
import Firmware.Proofs.I2c.Settings
import Firmware.Proofs.BoundedSearch
import Firmware.Proofs.Timers.Slots
import Firmware.Proofs.Ports.Tape
import Firmware.Proofs.Ports.Runs
import Firmware.Proofs.Json.Flat
import Firmware.Proofs.I2c.Console.Reports
import Firmware.Proofs.Registers.Plain
import Firmware.Proofs.Registers.History
import Firmware.Proofs.Registers.Handles
