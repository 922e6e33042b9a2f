import GlyphTables.Library

/-!
# The library of `pfm2sid`

The custom characters of the program's display, as a table and as the library that is generated
for it.
-/

namespace GlyphTables.Pfm2sid

/-- The custom characters in the order of their character codes. -/
def characters : List (String × String) :=
  [("note", "
...X.
...XX
...XX
...X.
...X.
.XXX.
XXXX.
.XX..
"),
    ("bend", "
.....
.....
.....
..X..
..X..
.XXX.
X...X
XXXXX
"),
    ("tri", "
.....
.....
.X...
X.X.X
...X.
.....
.....
.....
"),
    ("saw", "
.....
...XX
..X.X
.X..X
X...X
.....
.....
.....
"),
    ("square", "
.....
XXX..
X.X..
..X.X
..XXX
.....
.....
.....
")]

/-- The table of the characters: enumerated, so that they can be written by name. -/
def metadata : Table.Metadata where
  name := "lcd_char"
  symbolPrefix := "LCD_CHAR"
  kind := .enumerated
  elementType := "uint8_t * const"
  useAliases := false
  includes := []

/-- The table of all characters, made from their pictures. -/
def characterTable : Logged TableError Table :=
  Table.ofGlyphs metadata characters

/-- The library that the program compiles, with this one table. -/
def library : Logged Library.BuildError Library :=
  Library.build [characterTable] fun tables =>
    { target := "pfm2sid"
      scope := "pfm2sid::resources"
      includes := ["#include <cinttypes>"]
      preamble := ""
      tables }

end GlyphTables.Pfm2sid
