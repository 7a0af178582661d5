import ChipVM.Opcode
import ChipVM.Text.Hex

/-!
# Faults

The ways in which a single step of the machine can go wrong. A fault is an answer, not a stop: the
machine can be stepped again.
-/

namespace ChipVM

/-- Why a step did not do its work. -/
inductive Fault where
  /-- The word at the program counter stands for no instruction. -/
  | unimplemented (op : Opcode)
  /-- A return with no call to return to. -/
  | stackUnderflow
  /-- A call with `depth` calls open already. -/
  | stackOverflow (depth : Nat)
  /-- A range of memory that runs off its end; the address is the first one outside. -/
  | outOfBounds (address : UInt16)
  deriving DecidableEq, Repr

/-- The wording of a fault. -/
def Fault.message : Fault → String
  | unimplemented op => "unimplemented instruction 0x" ++ Text.hex 4 op.word.toNat
  | stackUnderflow => "return with an empty call stack"
  | stackOverflow depth => "call stack overflow (depth " ++ toString depth ++ ")"
  | outOfBounds address => "address 0x" ++ Text.hex 4 address.toNat ++ " is outside of memory"

end ChipVM
