/-!
# Hexadecimal text

Numbers in base sixteen: no more digits than needed, and zeros on the left up to a least width.
-/

namespace ChipVM.Text

/-- The lower-case base-sixteen digits of `n`, filled with zeros up to `width`. -/
def hexDigits (width n : Nat) : List Char :=
  (Nat.toDigits 16 n).leftpad width '0'

/-- The text of `n` in lower-case digits, at least `width` of them. -/
def hex (width n : Nat) : String := String.ofList (hexDigits width n)

/-- The text of `n` in upper-case digits, as few as possible. -/
def hexUpper (n : Nat) : String := String.ofList ((Nat.toDigits 16 n).map Char.toUpper)

end ChipVM.Text
