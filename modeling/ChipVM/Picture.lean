import ChipVM.Display.Points
import ChipVM.Text.Cells

/-!
# Pictures in a terminal

A display is shown as a box drawn in characters, one cell for each pixel, with a title in the upper
edge. The lit pixels are plotted as points, and a cell that a point falls into shows a block. What
box, title and points come to in characters is how the terminal's own library draws them.
-/

namespace ChipVM

/-- The column and the row that a point falls into, if it lies on the canvas. -/
def Point.cell? (p : Point) : Option (Nat × Nat) :=
  if xBounds.1 ≤ p.x ∧ p.x ≤ xBounds.2 ∧ yBounds.1 ≤ p.y ∧ p.y ≤ yBounds.2 then
    some ((p.x - xBounds.1).toNat, (yBounds.2 - p.y).toNat)
  else none

namespace Picture

/-- The character of a lit pixel. -/
def block : Char := '▄'

/-- Mark the cell that a point falls into; a point off the canvas marks none. -/
def mark (cells : Display) (p : Point) : Display :=
  match p.cell? with
  | some (x, y) => Display.ofFn fun r =>
    if r = y then cells.row r ||| Display.stampRow x 0x80 else cells.row r
  | none => cells

/-- The cells inside the box that show a block, one pixel for each cell. -/
def plot (points : List Point) : Display := points.foldl mark Display.dark

/-- The upper edge, with as much of the title as it has room for. -/
def topEdge (title : List Char) : List Char :=
  let (shown, used) := Text.shownIn Display.width title
  '┌' :: shown ++ List.replicate (Display.width - used) '─' ++ ['┐']

/-- The lower edge. -/
def bottomEdge : List Char := '└' :: List.replicate Display.width '─' ++ ['┘']

/-- The row of cells between the sides of the box. -/
def innerRow (cells : Display) (y : Nat) : List Char :=
  '│' :: ((List.range Display.width).map fun x => if cells.pixel x y then block else ' ') ++ ['│']

/-- The rows of the picture of a display, from the top. -/
def rows (title : String) (d : Display) : List String :=
  let cells := plot (d.points true)
  (topEdge title.toList :: (List.range Display.height).map (innerRow cells) ++ [bottomEdge]).map
    String.ofList

end Picture

/-- What a terminal is set to. -/
structure TerminalMode where
  /-- The program has the screen to itself. -/
  alternate : Bool
  cursorVisible : Bool
  deriving DecidableEq, Repr

/-- The mode that a terminal is found in and left in. -/
def TerminalMode.normal : TerminalMode := ⟨false, true⟩

/-- The mode that pictures are shown in. -/
def TerminalMode.pictures : TerminalMode := ⟨true, false⟩

end ChipVM
