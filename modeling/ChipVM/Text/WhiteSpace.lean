import ChipVM.Text.CharSet

/-!
# White space

The characters with Unicode's property `White_Space`, and the removal of such characters from both
ends of a text.
-/

namespace ChipVM.Text

/-- The characters that are white space. -/
def whiteSpace : CharSet where
  ranges := [
    (0x0009, 0x000D), (0x0020, 0x0020), (0x0085, 0x0085), (0x00A0, 0x00A0), (0x1680, 0x1680),
    (0x2000, 0x200A), (0x2028, 0x2029), (0x202F, 0x202F), (0x205F, 0x205F), (0x3000, 0x3000)]

/-- The character is white space. -/
def isWhiteSpace (c : Char) : Bool := whiteSpace.contains c

/-- The characters between the white space at both ends. -/
def trim (cs : List Char) : List Char :=
  ((cs.dropWhile isWhiteSpace).reverse.dropWhile isWhiteSpace).reverse

end ChipVM.Text
