import ChipVM.Instruction.Mnemonic
import ChipVM.Machine.Step

/-!
# The journal

What the machine and its host note down while they work, entry by entry.
-/

namespace ChipVM

/-- A noted event. -/
inductive JournalEntry where
  /-- A machine was switched on. -/
  | switchedOn (variant : Variant)
  /-- A program of so many bytes was loaded. -/
  | loaded (length : Nat)
  /-- An instruction is about to be carried out. -/
  | running (address : UInt16) (op : Opcode) (instruction : Instruction Reg)
  /-- A call of machine code is passed over. -/
  | machineCallIgnored (target : UInt16)
  /-- The step from an address failed. -/
  | stepFailed (address : UInt16) (fault : Fault)
  deriving DecidableEq, Repr

namespace JournalEntry

/-- How much an entry matters. -/
def level : JournalEntry → String
  | switchedOn _ | loaded _ | machineCallIgnored _ => "DEBUG"
  | running .. => "TRACE"
  | stepFailed .. => "WARN"

/-- The wording of an entry. -/
def text : JournalEntry → String
  | switchedOn variant => "new " ++ variant.name ++ " interpreter"
  | loaded length => "loaded " ++ toString length ++ " byte program"
  | running address op instruction =>
    Text.hex 3 address.toNat ++ ": " ++ Text.hex 4 op.word.toNat ++ " " ++ instruction.text
  | machineCallIgnored target => "ignoring machine code call to " ++ Text.hex 3 target.toNat
  | stepFailed address fault => Text.hex 3 address.toNat ++ ": " ++ fault.message

/-- An entry as a line: its level and its wording. -/
def line (e : JournalEntry) : String := e.level ++ " " ++ e.text

end JournalEntry

/-- What the next step of a machine notes: nothing, unless it reaches an instruction. -/
def Machine.stepEntries (m : Machine) : List JournalEntry :=
  match m.fetch with
  | .error _ => []
  | .ok op =>
    match Instruction.decode? op with
    | none => []
    | some (.machineCall target) =>
      [.running m.regs.pc op (.machineCall target), .machineCallIgnored target]
    | some i => [.running m.regs.pc op i]

end ChipVM
