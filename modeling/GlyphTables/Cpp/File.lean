import GlyphTables.Cpp.Block
import GlyphTables.Library

/-!
# The generated header and source

Both files consist of a beginning, the blocks of the tables with an empty line between them, and
an end. Only the blocks depend on the tables, but for the include directives at the beginning of
the header.
-/

namespace GlyphTables.Cpp

/-- The macro that keeps a header from being read twice, made of the target and the name of the
file. -/
def includeGuard (target baseName : String) : String :=
  (sanitize (target ++ "_" ++ baseName ++ "_H_")).toUpper

/-- The lines that open the namespace. -/
def openScope (scope : String) : List String :=
  if scope.isEmpty then [] else ["namespace " ++ scope ++ " \x7b", ""]

def closeScope (scope : String) : List String :=
  if scope.isEmpty then [] else ["", "\x7d // namespace " ++ scope]

/-! ## The header -/

/-- All include directives, each at its first place. -/
def includes (library : Library) : List String :=
  (library.includes ++ library.tables.flatMap fun table => table.metadata.includes).eraseDups

/-- The include directives as they are written, if there are any. -/
def includeLines (library : Library) : List String :=
  if (includes library).isEmpty then [] else includes library ++ [""]

/-- The text at the top of the header; it may itself have several lines. -/
def preambleLines (preamble : String) : List String :=
  if preamble.isEmpty then []
  else [String.ofList (Text.trimEnd preamble.toList), ""]

/-- The lines that open the guard. -/
def guardLines (guard : String) : List String :=
  ["#ifndef " ++ guard, "#define " ++ guard, ""]

/-- The tables as the header has them. -/
def headerBlocks (library : Library) : List String :=
  [""].intercalate (library.tables.map fun table => (headerBlock table).lines)

/-- All lines of the header. Each of them can be written. -/
def headerLines (library : Library) (baseName : String) : List String :=
  let guard := includeGuard library.target baseName
  preambleLines library.preamble ++ guardLines guard ++ includeLines library ++
    openScope library.scope ++ headerBlocks library ++ closeScope library.scope ++
    ["", "#endif // " ++ guard]

/-- The header of a library for the files with the name `baseName`. -/
def header (library : Library) (baseName : String) : Draft :=
  (headerLines library baseName).map some

/-! ## The source -/

/-- The tables as the source has them. -/
def sourceBlocks (library : Library) : Draft :=
  [some ""].intercalate (library.tables.map fun table => (sourceBlock table).lines)

/-- The source that belongs to the header `baseName`. -/
def source (library : Library) (baseName : String) : Draft :=
  ["#include \"" ++ baseName ++ ".h\"", ""].map some ++ (openScope library.scope).map some ++
    sourceBlocks library ++ (closeScope library.scope).map some

end GlyphTables.Cpp
