import ChipVM.Text.WhiteSpace

/-!
# Variants

The two flavours of the machine and the names they go by. A name may be padded with white space and
written in either case.
-/

namespace ChipVM

/-- A flavour of the machine. -/
inductive Variant where
  /-- The first interpreter, for the COSMAC VIP. -/
  | legacy
  /-- The later SUPER-CHIP. -/
  | extended
  deriving DecidableEq, Repr

namespace Variant

/-- The name a variant is shown under. -/
def name : Variant → String
  | legacy => "legacy"
  | extended => "extended"

/-- The names that each variant answers to, in lower case. -/
def aliases : Variant → List String
  | legacy => ["legacy", "chip8", "chip-8", "vip"]
  | extended => ["extended", "schip", "superchip", "super-chip"]

/-- The form in which names are compared: no white space around it, ASCII letters in lower case. -/
def normalize (s : String) : String :=
  String.ofList ((Text.trim s.toList).map Char.toLower)

/-- The variant that goes by a name, if one does. -/
def named? (s : String) : Option Variant :=
  if normalize s ∈ legacy.aliases then some legacy
  else if normalize s ∈ extended.aliases then some extended
  else none

/-- The variant that goes by a name, and the first one for a name that nothing goes by. -/
def named (s : String) : Variant := (named? s).getD legacy

/-- Looking a name up deserves a warning: nothing goes by it. -/
def unknownName (s : String) : Bool := (named? s).isNone

end Variant

end ChipVM
