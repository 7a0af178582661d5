import ChipVM.HostFault

/-!
# Program images

A program is a string of bytes that fits between the place where programs start and the end of
memory. Making one from bytes fails exactly when there are too many of them.
-/

namespace ChipVM

/-- Why there is no program. -/
inductive LoadFault where
  /-- The image has `size` bytes, and at most `limit` fit. -/
  | tooLarge (size limit : Nat)
  /-- The host could not deliver the bytes. -/
  | unreadable (fault : HostFault)
  deriving DecidableEq, Repr

/-- The most bytes that fit. -/
def Program.capacity : Nat := 3584

/-- The wording of a failure to make a program. -/
def LoadFault.message : LoadFault → String
  | tooLarge size limit =>
    "program is " ++ toString size ++ " bytes; at most " ++ toString limit ++
      " bytes fit in memory"
  | unreadable fault => "can't read program: " ++ fault.text

/-- A program image. -/
structure Program where
  bytes : List UInt8
  fits : bytes.length ≤ Program.capacity
  deriving DecidableEq, Repr

namespace Program

/-- The program with the given bytes. -/
def ofBytes (bytes : List UInt8) : Except LoadFault Program :=
  if h : bytes.length ≤ capacity then .ok ⟨bytes, h⟩ else .error (.tooLarge bytes.length capacity)

/-- How many bytes a program has. -/
def length (p : Program) : Nat := p.bytes.length

/-- Too many bytes are no program. -/
theorem ofBytes_of_lt {bytes : List UInt8} (h : capacity < bytes.length) :
    ofBytes bytes = .error (.tooLarge bytes.length capacity) := dif_neg (by omega)

end Program

end ChipVM
