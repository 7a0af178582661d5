import ChipVM.Random.ChaCha

/-!
# Random bytes

The machine draws its random bytes from one stream of words, fixed by a seed, and remembers only how
many words it has drawn.
-/

namespace ChipVM

/-- A stream of random words and how far it has been used up. -/
structure RandomStream where
  key : ChaCha.Key
  /-- How many words have been drawn. -/
  drawn : Nat
  deriving DecidableEq, Repr

namespace RandomStream

/-- The next state of the generator that stretches a seed into a key. -/
def seedNext (state : UInt64) : UInt64 := state * 6364136223846793005 + 11634580027462260723

/-- The key word of a state: its high bits folded down, rotated by its top five bits. -/
def seedWord (state : UInt64) : UInt32 :=
  let folded := (((state >>> 18) ^^^ state) >>> 27).toUInt32
  ⟨folded.toBitVec.rotateRight (state >>> 59).toNat⟩

/-- The state of the stretching generator after `n` steps from a seed. -/
def seedState (seed : UInt64) (n : Nat) : UInt64 := Nat.repeat seedNext n seed

/-- The unused stream of a seed. -/
def ofSeed (seed : UInt64) : RandomStream :=
  ⟨Vector.ofFn fun k => seedWord (seedState seed (k.val + 1)), 0⟩

/-- The byte that a place of the stream gives: the low bits of its word. -/
def byteAt (s : RandomStream) (k : Nat) : UInt8 := (ChaCha.word s.key k).toUInt8

/-- The byte that is drawn next. -/
def next (s : RandomStream) : UInt8 := s.byteAt s.drawn

/-- The stream after a draw. -/
def advance (s : RandomStream) : RandomStream := { s with drawn := s.drawn + 1 }

end RandomStream

end ChipVM
