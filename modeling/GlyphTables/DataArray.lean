import GlyphTables.Literal

/-!
# Number arrays

A named, typed list of numbers together with the style in which they are written.
-/

namespace GlyphTables

/-- The numbers of an entry with the name and the element type of the array that holds them. -/
structure DataArray where
  name : String
  elementType : String
  values : List Int
  style : Literal.Style := .decimal
  deriving DecidableEq

namespace DataArray

def size (array : DataArray) : Nat :=
  array.values.length

/-- The literals of all values, if the style can be honoured for each of them. -/
def literals? (array : DataArray) : Option (List String) :=
  array.values.mapM array.style.render?

end DataArray

end GlyphTables
