import GlyphTables.Glyph
import GlyphTables.Text.Quoted

/-!
# Why a table cannot be made
-/

namespace GlyphTables

/-- Why an entry is refused, or a table not made; each error names its table. -/
inductive TableError where
  | malformedGlyph (table entry : String) (error : ShapeError)
  | invalidIdentifier (table name : String)
  | empty (table : String)
  | emptyArray (table name : String)
  | duplicateName (table name : String)
  | reservedName (table name : String)
  /-- The entries `first` and `second` lead to the same symbol or the same data name. -/
  | collision (table first second identifier : String)
  deriving DecidableEq

namespace TableError

open Text

/-- The table that an error is about. -/
def table : TableError → String
  | malformedGlyph table _ _ => table
  | invalidIdentifier table _ => table
  | empty table => table
  | emptyArray table _ => table
  | duplicateName table _ => table
  | reservedName table _ => table
  | collision table _ _ _ => table

/-- The error behind this one, if there is one. -/
def cause? : TableError → Option ShapeError
  | malformedGlyph _ _ error => some error
  | _ => none

/-- What is said of the table in a message. -/
def complaint : TableError → String
  | malformedGlyph _ entry error => ": malformed glyph " ++ quote entry ++ ": " ++ error.message
  | invalidIdentifier _ name => ": " ++ quote name ++ " is not a valid identifier"
  | empty _ => " has no entries"
  | emptyArray _ name => ": entry " ++ quote name ++ " holds no values"
  | duplicateName _ name => ": duplicate entry " ++ quote name
  | reservedName _ name => ": entry " ++ quote name ++ " is reserved"
  | collision _ first second identifier =>
    ": entries " ++ quote first ++ " and " ++ quote second ++ " both generate " ++ identifier

def message (error : TableError) : String :=
  "table " ++ quote error.table ++ error.complaint

end TableError

end GlyphTables
