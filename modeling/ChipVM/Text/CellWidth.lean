import ChipVM.Text.CellWidth.Emoji
import ChipVM.Text.CellWidth.Shapes
import ChipVM.Text.Cluster.Letters
import ChipVM.Text.Cluster.Marks

/-!
# Cell widths

A terminal shows text in cells of one width. A character takes a number of cells by its shape, but
what follows in the same cluster may change it: a selector asks for an emoji or for text, a skin
tone colours an emoji, a joiner draws several emoji as one, a Khmer letter goes under another. So
the width of a cluster is measured from its end, with a note on what the part measured so far
begins with.
-/

namespace ChipVM.Text

/-- The character is drawn in the cells of others. -/
def isShapeless (c : Char) : Bool :=
  ignorables.contains c || extenders.contains c && !standingExtenders.contains c ||
    vowelJamo.contains c || trailingJamo.contains c || overlays.contains c

/-- How many cells a character takes if nothing after it changes that. A control character takes one
like any other, but a line feed takes none. -/
def charWidth (c : Char) : Nat :=
  if c = '\n' then 0
  else if c = '\u2D7F' then 1
  else if c = '\u115F' || c = '\u17A4' then 2
  else if c = '\u17D8' then 3
  else if isShapeless c then 0
  else if wideShapes.contains c then 2
  else 1

/-- What the end of a cluster begins with, as far as it bears on the character before it. -/
inductive Lead where
  | plain
  | lineFeed
  /-- The emoji selector; in front of a joined emoji if so noted. -/
  | emojiSelector (joined : Bool)
  | textSelector
  | emoji
  /-- A joiner and an emoji. -/
  | joinedEmoji
  | skinTone
  /-- A keycap frame that is joined to an emoji. -/
  | joinedKeycap
  /-- A flag letter that is joined to an emoji. -/
  | joinedFlagLetter
  /-- The tags of a flag that is joined to an emoji, as many digits and then letters. -/
  | joinedTags (digits letters : Nat)
  /-- A Khmer letter that can go under another. -/
  | khmerLetter
  deriving DecidableEq, Repr

/-- What a character is for the one before it. -/
def Lead.ofChar (c : Char) : Lead :=
  if c = '\n' then .lineFeed
  else if c = '\uFE0F' then .emojiSelector false
  else if c = '\uFE0E' then .textSelector
  else if emojiByDefault.contains c then .emoji
  else if skinTones.contains c then .skinTone
  else if khmerLetters.contains c then .khmerLetter
  else .plain

/-- The end of a cluster that has been measured. -/
structure Measure where
  /-- How many cells it takes. -/
  width : Nat
  lead : Lead
  deriving DecidableEq, Repr

namespace Measure

/-- Nothing has been measured. -/
def empty : Measure := ⟨0, .plain⟩

/-- Measure one more character, on its own. -/
def add (c : Char) (m : Measure) : Measure := ⟨charWidth c + m.width, Lead.ofChar c⟩

/-- Measure the character before a joined emoji: an emoji, or the end of one, is drawn in its
cells. -/
def addJoined (c : Char) (m : Measure) : Measure :=
  if c = '\uFE0F' then ⟨m.width, .emojiSelector true⟩
  else if c = '\u20E3' then ⟨m.width, .joinedKeycap⟩
  else if flagLetters.contains c then ⟨m.width + 1, .joinedFlagLetter⟩
  else if skinTones.contains c then ⟨m.width, .skinTone⟩
  else if c.toNat = 0xE007F then ⟨m.width, .joinedTags 0 0⟩
  else if emojiByDefault.contains c then ⟨m.width, .emoji⟩
  else m.add c

/-- Measure the character before the tags of a joined flag. A flag has three to six letters, or
three digits and at most four letters; it is drawn in the cells of the emoji. -/
def addToTags (c : Char) (digits letters : Nat) (m : Measure) : Measure :=
  if 0xE0061 ≤ c.toNat && c.toNat ≤ 0xE007A && digits = 0 && letters < 6 then
    ⟨m.width, .joinedTags 0 (letters + 1)⟩
  else if 0xE0030 ≤ c.toNat && c.toNat ≤ 0xE0039 && digits < 3 && letters ≤ 4 then
    ⟨m.width, .joinedTags (digits + 1) letters⟩
  else if c.toNat = 0x1F3F4 && (digits = 3 || digits = 0 && 3 ≤ letters) then
    ⟨m.width, .emoji⟩
  else m.add c

/-- Measure the character before a Khmer letter: the sign that puts the letter under another takes
its cell back. -/
def addToKhmer (c : Char) (m : Measure) : Measure :=
  if c = '\u17D2' then ⟨m.width - 1, .plain⟩
  else if ignorableMarks.contains c then m
  else m.add c

/-- Measure one more character. -/
def extend (c : Char) (m : Measure) : Measure :=
  match m.lead with
  | .plain => m.add c
  | .lineFeed => if c = '\r' then ⟨m.width, .plain⟩ else m.add c
  | .emojiSelector joined =>
    if emojiOnRequest.contains c then ⟨m.width + (if joined then 0 else 2), .emoji⟩ else m.add c
  | .textSelector =>
    if textOnRequest.contains c then ⟨m.width + 1, .plain⟩ else m.add c
  | .emoji => if c = '\u200D' then ⟨m.width, .joinedEmoji⟩ else m.add c
  | .joinedEmoji => m.addJoined c
  | .skinTone =>
    if skinToneBases.contains c then ⟨m.width, .emoji⟩
    else if c = '\u200D' then ⟨m.width, .joinedEmoji⟩
    else m.add c
  | .joinedKeycap => if c = '\uFE0F' then ⟨m.width, .emojiSelector true⟩ else m.add c
  | .joinedFlagLetter => if flagLetters.contains c then ⟨m.width - 1, .plain⟩ else m.add c
  | .joinedTags digits letters => m.addToTags c digits letters
  | .khmerLetter => m.addToKhmer c

end Measure

/-- How many cells a cluster takes. -/
def clusterWidth (cluster : List Char) : Nat := (cluster.foldr Measure.extend .empty).width

end ChipVM.Text
