import GlyphTables.Table

/-!
# What the generated code says about a table

Each table has a block in the header, which declares its names, and a block in the source, which
defines them. A block is kept as data, so that what the two files say can be compared; its lines
are the generated text.
-/

namespace GlyphTables.Cpp

/-- The lines of a text in order. `none` stands for a line that cannot be written, because a
number in it has no literal. -/
abbrev Draft := List (Option String)

/-- The constant array `name` with `bound` elements. -/
structure Declarator where
  elementType : String
  name : String
  bound : String
  deriving DecidableEq

/-- A declarator in the words of the language; all generated arrays are constant. -/
def Declarator.text (d : Declarator) : String :=
  "const " ++ d.elementType ++ " " ++ d.name ++ "[" ++ d.bound ++ "]"

/-! ## In the header -/

/-- The constants of a table as they are declared: those of the entries, and their count. -/
structure Enumeration where
  name : String
  enumerators : List String
  /-- The last enumerator, whose value is the number of those before it. -/
  count : String

/-- The lines of an enumeration. The values are left to the language, which counts from 0. -/
def Enumeration.lines (e : Enumeration) : List String :=
  ["enum " ++ e.name ++ " \x7b"] ++ e.enumerators.map (fun symbol => "  " ++ symbol ++ ",") ++
    ["  " ++ e.count, "\x7d; // enum " ++ e.name]

/-- What the header says of a table. -/
structure HeaderBlock where
  enumeration : Option Enumeration
  array : Declarator
  /-- The arrays of the entries, if they are declared. -/
  aliases : Option (List Declarator)

/-- A line that declares an array which the source defines. -/
def externLine (d : Declarator) : String :=
  "extern " ++ d.text ++ ";"

/-- The lines of a block: the enumeration, the array of the table, and then those of the entries,
with an empty line after each part but the last. -/
def HeaderBlock.lines (block : HeaderBlock) : List String :=
  let enumeration :=
    match block.enumeration with
    | none => []
    | some e => e.lines ++ [""]
  let aliases :=
    match block.aliases with
    | none => []
    | some ds => [""] ++ ds.map externLine
  enumeration ++ [externLine block.array] ++ aliases

/-! ## In the source -/

/-- The definition of an array of numbers. -/
structure Definition where
  /-- Whether the array can be used in its own file only. -/
  isStatic : Bool
  declarator : Declarator
  values : List Int
  style : Literal.Style

/-- The word that keeps an array to its own file. -/
def Definition.linkage (d : Definition) : String :=
  if d.isStatic then "static " else ""

/-- The literals of the numbers in a row, if each number has one. -/
def Definition.initializer? (d : Definition) : Option String :=
  (d.values.mapM d.style.render?).map fun literals => ", ".intercalate literals

/-- A definition in one line, if its numbers can be written. -/
def Definition.line? (d : Definition) : Option String :=
  d.initializer?.map fun initializer =>
    d.linkage ++ d.declarator.text ++ " = \x7b " ++ initializer ++ " \x7d;"

/-- An element of a table: the array of an entry, in an enumerated table under the entry's
symbol. -/
structure Row where
  label : Option String
  name : String

/-- The lines of an element; the symbol stands above it as a comment. -/
def Row.lines (row : Row) : List String :=
  let label :=
    match row.label with
    | none => []
    | some symbol => ["  // " ++ symbol]
  label ++ ["  " ++ row.name ++ ","]

/-- What the source says of a table: the arrays of its entries, and then the array that points to
them. -/
structure SourceBlock where
  data : List Definition
  array : Declarator
  rows : List Row

/-- The lines of a block. Only those of the data can lack a literal. -/
def SourceBlock.lines (block : SourceBlock) : Draft :=
  block.data.map Definition.line? ++
    (["", block.array.text ++ " = \x7b"] ++ block.rows.flatMap Row.lines ++ ["\x7d;"]).map some

/-! ## The blocks of a table -/

/-- The expression for the number of entries. -/
def countExpression (table : Table) : String :=
  match table.metadata.kind with
  | .enumerated => table.countSymbol
  | .array => Literal.natural table.entries.length

/-- The array of a table, which has as many elements as the table has entries. -/
def tableDeclarator (table : Table) : Declarator where
  elementType := table.metadata.elementType
  name := table.arrayName
  bound := countExpression table

/-- The array of an entry, which has as many elements as the entry has numbers. -/
def entryDeclarator (table : Table) (entry : Table.Entry) : Declarator where
  elementType := entry.array.elementType
  name := table.dataName entry
  bound := Literal.natural entry.array.size

/-- The enumeration of a table, if it is to have one. -/
def enumeration? (table : Table) : Option Enumeration :=
  match table.metadata.kind with
  | .enumerated => some ⟨table.enumName, table.entries.map table.symbol, table.countSymbol⟩
  | .array => none

/-- What the header says of `table`. -/
def headerBlock (table : Table) : HeaderBlock where
  enumeration := enumeration? table
  array := tableDeclarator table
  aliases :=
    if table.metadata.useAliases then some (table.entries.map (entryDeclarator table)) else none

/-- The definition of the array of an entry. Only aliases can be used in other files. -/
def entryDefinition (table : Table) (entry : Table.Entry) : Definition where
  isStatic := !table.metadata.useAliases
  declarator := entryDeclarator table entry
  values := entry.array.values
  style := entry.array.style

/-- The element of a table for one entry. -/
def entryRow (table : Table) (entry : Table.Entry) : Row where
  label :=
    match table.metadata.kind with
    | .enumerated => some (table.symbol entry)
    | .array => none
  name := table.dataName entry

/-- What the source says of `table`. -/
def sourceBlock (table : Table) : SourceBlock where
  data := table.entries.map (entryDefinition table)
  array := tableDeclarator table
  rows := table.entries.map (entryRow table)

end GlyphTables.Cpp
