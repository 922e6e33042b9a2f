import GlyphTables.DataArray
import GlyphTables.Identifier

/-!
# Tables

A table is an ordered collection of named number arrays. In the generated code it is an array of
pointers, which an enumerated table lets one index by generated constants.
-/

namespace GlyphTables

/-- Whether the entries of a table are counted by constants or by numbers alone. -/
inductive Table.Kind where
  | enumerated
  | array
  deriving DecidableEq

/-- What a table is like apart from its entries. -/
structure Table.Metadata where
  name : String
  symbolPrefix : String
  kind : Table.Kind
  elementType : String
  /-- Whether the array of each entry can also be used by its own name. -/
  useAliases : Bool
  includes : List String
  deriving DecidableEq

/-- A named array of numbers in a table. -/
structure Table.Entry where
  name : String
  array : DataArray
  deriving DecidableEq

/-- A table as it is generated; the naming rules are kept by who builds it. -/
structure Table where
  metadata : Table.Metadata
  entries : List Table.Entry
  deriving DecidableEq

namespace Table

/-- Ends the enumeration and counts the entries. -/
def countWord : String := "LAST"

/-- Names the enumeration. -/
def enumWord : String := "RESID"

namespace Metadata

def symbol (metadata : Metadata) (name : String) : String :=
  GlyphTables.symbol metadata.symbolPrefix name

def dataName (metadata : Metadata) (name : String) (array : DataArray) : String :=
  GlyphTables.dataName metadata.name name array.name

end Metadata

def name (table : Table) : String :=
  table.metadata.name

/-- The constant of an entry, which is its index in the array of an enumerated table. -/
def symbol (table : Table) (entry : Entry) : String :=
  table.metadata.symbol entry.name

/-- The name of the array that holds the numbers of an entry. -/
def dataName (table : Table) (entry : Entry) : String :=
  table.metadata.dataName entry.name entry.array

/-- The name of the array of pointers: that of the table in the plural. -/
def arrayName (table : Table) : String :=
  table.metadata.name ++ "s"

def enumName (table : Table) : String :=
  table.metadata.symbol enumWord

/-- The last constant of the enumeration, which is the number of entries. -/
def countSymbol (table : Table) : String :=
  table.metadata.symbol countWord

/-- The identifiers of the enumeration, its count first. -/
def enumIdentifiers (table : Table) : List String :=
  [table.enumName, table.countSymbol] ++ table.entries.map table.symbol

/-- The identifiers that the generated code of the table takes. -/
def identifiers (table : Table) : List String :=
  let enumeration :=
    match table.metadata.kind with
    | .enumerated => table.enumIdentifiers
    | .array => []
  [table.arrayName] ++ enumeration ++ table.entries.map table.dataName

end Table

end GlyphTables
