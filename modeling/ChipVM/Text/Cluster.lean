import ChipVM.Text.Cluster.Letters
import ChipVM.Text.Cluster.Marks

/-!
# Clusters

A cluster is what a reader takes for one character: a letter with its marks, a Korean syllable, a
conjunct, a flag, an emoji joined of several. The rules that part a text into clusters are those of
extended grapheme clusters; each looks back from a character to the cluster that it may join. No
character of the text is lost.
-/

namespace ChipVM.Text

/-- How a character behaves at the border of a cluster. -/
inductive BreakClass where
  | carriageReturn
  | lineFeed
  | separator
  | joiner
  | extender
  | spacingMark
  | prepender
  | flagLetter
  | leading
  | vowel
  | trailing
  /-- A Korean syllable without a last consonant. -/
  | openSyllable
  /-- A Korean syllable with a last consonant. -/
  | closedSyllable
  | other
  deriving DecidableEq, Repr

namespace BreakClass

/-- A Korean syllable in one character; every twenty-eighth has no last consonant. -/
def ofSyllable (c : Char) : BreakClass :=
  if 0xAC00 ≤ c.toNat && c.toNat ≤ 0xD7A3 then
    if (c.toNat - 0xAC00) % 28 = 0 then openSyllable else closedSyllable
  else other

/-- The class of a character. -/
def ofChar (c : Char) : BreakClass :=
  if c = '\r' then carriageReturn
  else if c = '\n' then lineFeed
  else if c = '\u200D' then joiner
  else if separators.contains c then separator
  else if extenders.contains c || skinTones.contains c then extender
  else if spacingMarks.contains c then spacingMark
  else if prependers.contains c then prepender
  else if flagLetters.contains c then flagLetter
  else if leadingJamo.contains c then leading
  else if vowelJamo.contains c || kiratRaiVowels.contains c then vowel
  else if trailingJamo.contains c then trailing
  else ofSyllable c

/-- Nothing joins the character on either side, but for a carriage return and a line feed. -/
def isSeparator (k : BreakClass) : Bool :=
  k = carriageReturn || k = lineFeed || k = separator

/-- The character joins whatever stands before it. -/
def isMark (k : BreakClass) : Bool := k = joiner || k = extender || k = spacingMark

/-- The second character goes on with the Korean syllable of the first. -/
def joinsSyllable : BreakClass → BreakClass → Bool
  | leading, leading | leading, vowel | leading, openSyllable | leading, closedSyllable => true
  | vowel, vowel | vowel, trailing | openSyllable, vowel | openSyllable, trailing => true
  | trailing, trailing | closedSyllable, trailing => true
  | _, _ => false

end BreakClass

/-- The character may stand between two consonants of a conjunct. -/
def isConjunctMark (c : Char) : Bool :=
  c ≠ '\u200C' && (BreakClass.ofChar c = .extender || BreakClass.ofChar c = .joiner)

/-- A consonant makes a conjunct with one before it if a linker is among the marks between them.
The characters before are given with the last one first. -/
def makesConjunct (before : List Char) (c : Char) : Bool :=
  conjunctLetters.contains c && (before.takeWhile isConjunctMark).any linkers.contains &&
    (before.dropWhile isConjunctMark).head?.any conjunctLetters.contains

/-- A pictograph is joined to one before it by a joiner that follows its marks. -/
def makesEmoji (before : List Char) (c : Char) : Bool :=
  match before with
  | '\u200D' :: earlier =>
    pictographs.contains c &&
      (earlier.dropWhile fun m => BreakClass.ofChar m = .extender).head?.any pictographs.contains
  | _ => false

/-- A flag is made of two letters, so that every second letter of a row joins. -/
def makesFlag (before : List Char) (c : Char) : Bool :=
  BreakClass.ofChar c = .flagLetter &&
    (before.takeWhile fun m => BreakClass.ofChar m = .flagLetter).length % 2 = 1

/-- The character joins the cluster before it, which is given with its last character first. -/
def joinsCluster (before : List Char) (c : Char) : Bool :=
  match before with
  | [] => false
  | last :: _ =>
    let k := BreakClass.ofChar last
    let l := BreakClass.ofChar c
    if k = .carriageReturn && l = .lineFeed then true
    else if k.isSeparator || l.isSeparator then false
    else l.isMark || k = .prepender || k.joinsSyllable l || makesConjunct before c ||
      makesEmoji before c || makesFlag before c

/-- The clusters of a text that goes on from a cluster, which is given with its last character
first. -/
def clustersAfter : List Char → List Char → List (List Char)
  | cluster, [] => [cluster.reverse]
  | cluster, c :: rest =>
    if joinsCluster cluster c then clustersAfter (c :: cluster) rest
    else cluster.reverse :: clustersAfter [c] rest

/-- The clusters of a text. -/
def clusters : List Char → List (List Char)
  | [] => []
  | c :: rest => clustersAfter [c] rest

end ChipVM.Text
