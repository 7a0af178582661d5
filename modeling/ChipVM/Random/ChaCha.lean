/-!
# ChaCha blocks

A block is sixteen words: four constants, eight words of key, the number of the block in two words,
and two zeros, stirred for a number of double rounds and added to what they were before. Counting
the blocks up from zero gives an unending stream of words that depends on nothing but the key.
-/

namespace ChipVM.ChaCha

/-- Eight words of key. -/
abbrev Key := Vector UInt32 8

/-- Sixteen words. -/
abbrev Block := Vector UInt32 16

/-- The word with its bits moved up by `r` places, those pushed out coming back at the bottom. -/
def rotate (r : Nat) (w : UInt32) : UInt32 := ⟨w.toBitVec.rotateLeft r⟩

/-- Add word `b` to word `a`, then combine the sum into word `d` and rotate that. -/
def mix (a b d : Fin 16) (r : Nat) (s : Block) : Block :=
  let s := s.set a.val (s[a.val] + s[b.val])
  s.set d.val (rotate r (s[d.val] ^^^ s[a.val]))

/-- A place in a block, counted around. -/
def place (k : Nat) : Fin 16 := ⟨k % 16, Nat.mod_lt k (by decide)⟩

/-- The quarter round on the words in four places. -/
def quarterRound (a b c d : Nat) (s : Block) : Block :=
  let (a, b, c, d) := (place a, place b, place c, place d)
  mix c d b 7 (mix a b d 8 (mix c d b 12 (mix a b d 16 s)))

/-- Quarter rounds on the four columns and then on the four diagonals. -/
def doubleRound (s : Block) : Block :=
  let s := quarterRound 2 6 10 14 (quarterRound 1 5 9 13 (quarterRound 0 4 8 12 s))
  let s := quarterRound 0 5 10 15 (quarterRound 3 7 11 15 s)
  quarterRound 3 4 9 14 (quarterRound 2 7 8 13 (quarterRound 1 6 11 12 s))

/-- How often the double round is applied; twelve rounds in all. -/
def doubleRounds : Nat := 6

/-- The four words that open every block. -/
def constants : Vector UInt32 4 := #v[0x61707865, 0x3320646e, 0x79622d32, 0x6b206574]

/-- A block before it is stirred. -/
def start (key : Key) (number : Nat) : Block :=
  constants ++ key ++ #v[UInt32.ofNat number, UInt32.ofNat (number / 0x100000000), 0, 0]

/-- The finished block of a number. -/
def block (key : Key) (number : Nat) : Block :=
  let s := start key number
  s.zipWith (· + ·) (Nat.repeat doubleRound doubleRounds s)

/-- The word at a place of the stream, counted from zero. -/
def word (key : Key) (k : Nat) : UInt32 :=
  (block key (k / 16)).get (place k)

end ChipVM.ChaCha
