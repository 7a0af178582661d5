import ChipVM.Console
import ChipVM.Play
import ChipVM.Program.Folder
import ChipVM.Proofs.Machine.Atomicity
import ChipVM.Proofs.Table
import ChipVM.Proofs.Machine.Control
import ChipVM.Proofs.Session.Bounds
import ChipVM.Proofs.Session.Faults
import ChipVM.Proofs.Session.Subroutine
import ChipVM.Proofs.Session.KeyWait
import ChipVM.Proofs.Machine.Variants
import ChipVM.Proofs.Session.Agreement
import ChipVM.Proofs.Play.Cycle
import ChipVM.Proofs.Play.Fold
import ChipVM.Proofs.Machine.Countdowns
import ChipVM.Proofs.Play.Pacing
import ChipVM.Proofs.Play.Clock
import ChipVM.Proofs.Play.CycleTimes
import ChipVM.Proofs.Play.FrameTimes
import ChipVM.Proofs.Play.Timetable
import ChipVM.Proofs.Play.BreakOff
import ChipVM.Proofs.Machine.Inside
import ChipVM.Proofs.Session.Isolation
import ChipVM.Proofs.Machine.Footprint
import ChipVM.Proofs.Session.Trace
import ChipVM.Proofs.Session.RandomBytes
import ChipVM.Proofs.Countdown
import ChipVM.Proofs.Session.Readings
import ChipVM.Proofs.Session.Waiting
import ChipVM.Proofs.Memory.LastStore
import ChipVM.Proofs.Display.Parity
import ChipVM.Proofs.Display.Lit
import ChipVM.Proofs.Keyboard
import ChipVM.Proofs.Console.Rounds
import ChipVM.Proofs.Console.Hold
import ChipVM.Proofs.Program.Ways
import ChipVM.Proofs.Machine.Load
import ChipVM.Proofs.Machine.Frame
import ChipVM.Proofs.Machine.NextAddress
import ChipVM.Proofs.Machine.Arithmetic
import ChipVM.Proofs.Machine.Drawing
import ChipVM.Proofs.Session.Blocks
import ChipVM.Proofs.Countdown.Conversion
import ChipVM.Proofs.Keypad
import ChipVM.Proofs.Display.Points
import ChipVM.Proofs.Picture
import ChipVM.Proofs.Assembly
import ChipVM.Proofs.Variant
