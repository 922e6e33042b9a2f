/-!
# Blank characters

The characters with the Unicode property White_Space, and trimming of blanks.
-/

namespace GlyphTables.Text

/-- Ranges of the code points with the property White_Space, both ends included. -/
def blankRanges : List (Nat × Nat) :=
  [(0x9, 0xd), (0x20, 0x20), (0x85, 0x85), (0xa0, 0xa0), (0x1680, 0x1680), (0x2000, 0x200a),
    (0x2028, 0x2029), (0x202f, 0x202f), (0x205f, 0x205f), (0x3000, 0x3000)]

def isBlank (c : Char) : Bool :=
  blankRanges.any fun range => range.1 ≤ c.toNat && c.toNat ≤ range.2

/-! ## Trimming -/

def trimStart (text : List Char) : List Char :=
  text.dropWhile isBlank

def trimEnd (text : List Char) : List Char :=
  (trimStart text.reverse).reverse

/-- A text without the blanks around it; those within stay. -/
def trim (text : List Char) : List Char :=
  trimEnd (trimStart text)

end GlyphTables.Text
