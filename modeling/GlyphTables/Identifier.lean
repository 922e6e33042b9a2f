/-!
# Identifiers of the generated code

An identifier starts with an ASCII letter or an underscore and goes on with ASCII letters, digits
and underscores. Letter case is that of ASCII throughout: `String.toUpper` and `String.toLower`
leave all other characters alone.
-/

namespace GlyphTables

/-- The characters that an identifier can start with. -/
def isIdentifierHead (c : Char) : Bool :=
  c.isAlpha || c == '_'

/-- The characters that can follow in an identifier; a digit is one of them. -/
def isIdentifierTail (c : Char) : Bool :=
  c.isAlphanum || c == '_'

/-- Whether a text can stand as a name in the generated code. -/
def isIdentifier (name : String) : Bool :=
  match name.toList with
  | [] => false
  | c :: rest => isIdentifierHead c && rest.all isIdentifierTail

/-- The enumeration constant of the entry `name` in a table whose constants begin with `stem`. -/
def symbol (stem name : String) : String :=
  (stem ++ "_" ++ name).toUpper

/-- The name of the array that holds `array` of the entry `entry`. -/
def dataName (table entry array : String) : String :=
  (table ++ "_" ++ entry ++ "_" ++ array).toLower

/-- Replaces every character that is not an ASCII letter or digit by an underscore. -/
def sanitize (text : String) : String :=
  text.map fun c => if c.isAlphanum then c else '_'

/-- Whether two names differ at most in the case of ASCII letters. -/
def eqIgnoringCase (a b : String) : Bool :=
  a.toLower == b.toLower

end GlyphTables
