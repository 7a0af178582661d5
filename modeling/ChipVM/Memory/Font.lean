/-!
# The built-in font

Sixteen glyphs, one for each hexadecimal digit, of five rows each. A row is a byte whose high four
bits are the pixels.
-/

namespace ChipVM.Font

/-- Where the first glyph lies in memory. -/
def address : UInt16 := 0x050

/-- The rows of one glyph. -/
def glyphHeight : UInt16 := 5

/-- The rows of all glyphs, from digit 0 to digit F. -/
def rows : List UInt8 := [
  0xF0, 0x90, 0x90, 0x90, 0xF0,
  0x20, 0x60, 0x20, 0x20, 0x70,
  0xF0, 0x10, 0xF0, 0x80, 0xF0,
  0xF0, 0x10, 0xF0, 0x10, 0xF0,
  0x90, 0x90, 0xF0, 0x10, 0x10,
  0xF0, 0x80, 0xF0, 0x10, 0xF0,
  0xF0, 0x80, 0xF0, 0x90, 0xF0,
  0xF0, 0x10, 0x20, 0x40, 0x40,
  0xF0, 0x90, 0xF0, 0x90, 0xF0,
  0xF0, 0x90, 0xF0, 0x10, 0xF0,
  0xF0, 0x90, 0xF0, 0x90, 0x90,
  0xE0, 0x90, 0xE0, 0x90, 0xE0,
  0xF0, 0x80, 0x80, 0x80, 0xF0,
  0xE0, 0x90, 0x90, 0x90, 0xE0,
  0xF0, 0x80, 0xF0, 0x80, 0xF0,
  0xF0, 0x80, 0xF0, 0x80, 0x80]

/-- Every digit has its five rows. -/
theorem length_rows : rows.length = 80 := rfl

/-- The address where the glyph of a digit starts. A byte past F is no digit, and its address lies
past the font. -/
def glyphAddress (digit : UInt8) : UInt16 := address + glyphHeight * digit.toUInt16

end ChipVM.Font
