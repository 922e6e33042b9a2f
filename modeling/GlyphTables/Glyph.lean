import GlyphTables.Text.Blank
import GlyphTables.Text.Lines

/-!
# Glyphs of a character display

A glyph is a picture of eight rows of five dots. As text it is written row by row, `X` for a set
dot and any other character for a clear one. In the memory of the display each row is one byte,
its leftmost dot in bit 4.
-/

namespace GlyphTables

/-- How many dots a row has. -/
abbrev Glyph.width : Nat := 5

/-- How many rows a picture has. -/
abbrev Glyph.height : Nat := 8

/-- A picture by its rows from the top, each of its dots from the left; a dot is set or clear. -/
structure Glyph where
  rows : Vector (Vector Bool Glyph.width) Glyph.height
  deriving DecidableEq

/-- Why a text is not a glyph. -/
inductive ShapeError where
  | rowCount (actual : Nat)
  | rowWidth (row actual : Nat)
  deriving DecidableEq

def ShapeError.message : ShapeError → String
  | .rowCount actual => s!"expected {Glyph.height} rows but got {actual} rows"
  | .rowWidth row actual =>
    s!"row {row} is {actual} characters wide: expected {Glyph.width} characters"

namespace Glyph

/-! ## Reading -/

/-- The character of a set dot. -/
def mark : Char := 'X'

/-- The picture with all dots clear, which reading starts from. -/
def blank : Glyph :=
  ⟨Vector.replicate height (Vector.replicate width false)⟩

/-- The dots of a row as it is written. -/
def readRow (row : List Char) : Vector Bool width :=
  Vector.ofFn fun c => row[c.toNat]? == some mark

/-- The picture with another row `r`; there is no row beyond the last. -/
def setRow (glyph : Glyph) (r : Nat) (row : Vector Bool width) : Glyph :=
  ⟨glyph.rows.setIfInBounds r row⟩

/-- Sets the rows from row `r` on to the given lines, up to the first that is not as wide as a
glyph. Blanks around a line do not count. -/
def setRows (glyph : Glyph) (r : Nat) : List (List Char) → Except ShapeError Glyph
  | [] => .ok glyph
  | line :: rest =>
    let row := Text.trim line
    if row.length ≠ width then .error (.rowWidth r row.length)
    else (glyph.setRow r (readRow row)).setRows (r + 1) rest

/-- Blanks around the text do not count either. -/
def parse (text : String) : Except ShapeError Glyph :=
  let lines := Text.lines (Text.trim text.toList)
  if lines.length ≠ height then .error (.rowCount lines.length)
  else blank.setRows 0 lines

/-! ## Packing -/

/-- A row as a byte: each dot pushes those before it one bit up. -/
def packRow (row : Vector Bool width) : UInt8 :=
  row.foldl (fun byte dot => (byte <<< 1) + if dot then 1 else 0) 0

/-- The bytes of a picture, one for each row. -/
def pack (glyph : Glyph) : Vector UInt8 height :=
  glyph.rows.map packRow

/-- Reads a glyph and packs it. -/
def encode (text : String) : Except ShapeError (Vector UInt8 height) :=
  (parse text).map pack

/-! ## Order -/

/-- Rows from the top, dots from the left, clear before set. -/
instance : Ord Glyph where
  compare a b := Vector.compareLex (Vector.compareLex compare) a.rows b.rows

/-- Bytes from the top, by size. -/
def comparePacked (a b : Vector UInt8 height) : Ordering :=
  Vector.compareLex compare a b

end Glyph

end GlyphTables
