/-!
# Faults of the host

What the machine's surroundings report when they cannot do their part: a file that is not there, a
source that breaks off, a screen that is gone. Such a fault carries its own wording.
-/

namespace ChipVM

/-- What sort of thing went wrong. -/
inductive HostFault.Kind where
  | other
  | permissionDenied
  | unexpectedEof
  | timedOut
  | brokenPipe
  | invalidInput
  | notFound
  | notADirectory
  deriving DecidableEq, Repr

/-- A failure of the host, with its own wording. -/
structure HostFault where
  kind : HostFault.Kind
  text : String
  deriving DecidableEq, Repr

end ChipVM
