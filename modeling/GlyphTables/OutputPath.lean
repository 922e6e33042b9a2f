import GlyphTables.Text.Utf8

/-!
# The paths of the generated files

A path is a string of bytes. The header and the source get the path that was asked for, with its
extension replaced.

A separator, or a dot that stands for the directory itself, does not count at the end of a path.
The extension of a name is what follows its last dot, unless nothing stands before that dot.
-/

namespace GlyphTables

/-- A path as the system has it: any bytes, which need not be text. -/
abbrev Path := List UInt8

namespace Path

def separator : UInt8 := 0x2f

def dot : UInt8 := 0x2e

/-! ## The file name -/

/-- A reversed path without the separators and single dots at its end. -/
def dropTail : List UInt8 → List UInt8
  | [] => []
  | byte :: rest =>
    if byte = separator then dropTail rest
    else match rest with
      | next :: _ => if byte = dot ∧ next = separator then dropTail rest else byte :: rest
      | [] => [byte]

/-- The last component of a path, which may stand for a directory. -/
def lastComponent (path : Path) : Path :=
  ((dropTail path.reverse).takeWhile (· != separator)).reverse

/-- What precedes the last component, with its separator. -/
def beforeLast (path : Path) : Path :=
  ((dropTail path.reverse).dropWhile (· != separator)).reverse

/-- The components that name no file: none at all, the directory itself and the one above. -/
def isNoName (name : Path) : Bool :=
  name == [] || name == [dot] || name == [dot, dot]

/-- The name of the file that a path means, if it can mean one. -/
def fileName? (path : Path) : Option Path :=
  if isNoName (lastComponent path) then none else some (lastComponent path)

/-! ## Stem and extension -/

/-- The stem of a name and its extension, if it has one. -/
def splitName (name : Path) : Path × Option Path :=
  let extension := (name.reverse.takeWhile (· != dot)).reverse
  match name.reverse.dropWhile (· != dot) with
  | [] => (name, none)
  | [_] => (name, none)
  | _ :: stem => (stem.reverse, some extension)

def stem? (path : Path) : Option Path :=
  (fileName? path).map fun name => (splitName name).1

/-- The extension of the file name, without its dot; it may be empty. -/
def extension? (path : Path) : Option Path :=
  (fileName? path).bind fun name => (splitName name).2

/-- The path up to the end of its stem. -/
def upToStem (path : Path) : Path :=
  match stem? path with
  | none => path
  | some stem => beforeLast path ++ stem

/-- The path without its extension. As many bytes as the extension has are cut off the end of the
path, whatever stands there; what is left ends with its stem. -/
def withoutExtension (path : Path) : Path :=
  upToStem (path.take (path.length - ((extension? path).getD []).length))

/-! ## The two files -/

def display (path : Path) : String :=
  Utf8.decodeLossy path

end Path

/-- Where the two generated files go. -/
structure OutputPaths where
  header : Path
  source : Path
  deriving DecidableEq

/-- The extension of `path` gives way to those of the two files. -/
def OutputPaths.ofPath (path : Path) : OutputPaths where
  header := path.withoutExtension ++ Utf8.encode ".h"
  source := path.withoutExtension ++ Utf8.encode ".cc"

/-- The name by which the generated files know each other, if it can be written in them. -/
def Path.baseName? (path : Path) : Option String :=
  path.stem?.bind Utf8.decode?

end GlyphTables
