import GlyphTables.OutputPath

/-!
# Files and directories

A tree of directories and files, seen from a working directory. Beside regular files it can hold
devices that are always full: they can be opened, but take no byte.

* `node?_put_of_ne` : changing one place leaves the others as they are.
-/

namespace GlyphTables

/-- Where something is, by the names of the directories from the root down. -/
abbrev Location := List Path

/-- What can stand at a place. -/
inductive FileTree.Node where
  | directory
  | file (content : List UInt8)
  | fullDevice
  deriving DecidableEq

/-- Whether bytes are taken that are handed over. A full device has room for none. -/
def FileTree.Node.takes : FileTree.Node → List UInt8 → Bool
  | file _, _ => true
  | _, bytes => bytes.isEmpty

/-- A node after bytes that it has taken; only a file keeps them. -/
def FileTree.Node.append : FileTree.Node → List UInt8 → FileTree.Node
  | file content, bytes => .file (content ++ bytes)
  | node, _ => node

/-- What stands at which place, the newest entry for a place first, and the directory from which
relative paths start. -/
structure FileTree where
  nodes : List (Location × FileTree.Node)
  working : Location

/-- The ways in which opening or filling a file fails. -/
inductive FileError where
  | nulByte
  | notFound
  | notDirectory
  | isDirectory
  | noSpace
  | nameTooLong
  deriving DecidableEq

def FileError.message : FileError → String
  | nulByte => "file name contained an unexpected NUL byte"
  | notFound => "No such file or directory (os error 2)"
  | notDirectory => "Not a directory (os error 20)"
  | isDirectory => "Is a directory (os error 21)"
  | noSpace => "No space left on device (os error 28)"
  | nameTooLong => "File name too long (os error 36)"

namespace FileTree

/-- What stands at a place; the root is a directory in every tree. -/
def node? (tree : FileTree) (place : Location) : Option Node :=
  match place with
  | [] => some .directory
  | place => tree.nodes.lookup place

/-- Puts a node at a place, over what was there. -/
def put (tree : FileTree) (place : Location) (node : Node) : FileTree :=
  { tree with nodes := (place, node) :: tree.nodes }

/-- Putting a node at one place leaves what stands at the others. -/
theorem node?_put_of_ne (tree : FileTree) (node : Node) {place other : Location}
    (h : other ≠ place) : (tree.put place node).node? other = tree.node? other := by
  cases other with
  | nil => rfl
  | cons name rest => simp [node?, put, List.lookup_cons, beq_eq_false_iff_ne.2 h]

theorem node?_put_self (tree : FileTree) (node : Node) {place : Location} (h : place ≠ []) :
    (tree.put place node).node? place = some node := by
  cases place with
  | nil => exact absurd rfl h
  | cons name rest => simp [node?, put]

/-! ## Finding a place -/

/-- No name in a path is longer, in bytes. -/
def longestName : Nat := 255

def longestPath : Nat := 4095

/-- The names in a path, without those that stand for the directory itself. -/
def components (path : Path) : List Path :=
  (path.splitOn Path.separator).filter fun name => name != [] && name != [Path.dot]

/-- The place that `name` means at `place`. -/
def step (place : Location) (name : Path) : Location :=
  if name = [Path.dot, Path.dot] then place.dropLast else place ++ [name]

/-- Goes from `place` to what `name` means there; nothing need be at the new place. -/
def enter (tree : FileTree) (place : Location) (name : Path) : Except FileError Location :=
  match tree.node? place with
  | none => .error .notFound
  | some .directory =>
    if longestName < name.length then .error .nameTooLong
    else .ok (step place name)
  | some _ => .error .notDirectory

/-- Where the names of a path are followed from. -/
def start (tree : FileTree) (path : Path) : Location :=
  if path.head? = some Path.separator then [] else tree.working

/-- The place that a path means. Every directory on the way has to be there, the place itself need
not. -/
def locate (tree : FileTree) (path : Path) : Except FileError Location :=
  if path.contains 0 then .error .nulByte
  else if longestPath < path.length then .error .nameTooLong
  else (components path).foldlM tree.enter (tree.start path)

/-- Opens the file at `path` for writing, empty. -/
def create (tree : FileTree) (path : Path) : Except FileError (Location × FileTree) := do
  let place ← tree.locate path
  match tree.node? place with
  | some .directory => .error .isDirectory
  | some .fullDevice => .ok (place, tree)
  | _ => .ok (place, tree.put place (.file []))

/-! ## Making a tree -/

/-- An empty working directory two levels below the root. -/
def fresh : FileTree :=
  let above : Location := [Utf8.encode "tmp"]
  let working := above ++ [Utf8.encode "work"]
  { nodes := [(above, .directory), (working, .directory)], working }

/-- Goes from `place` along `names` and makes each directory that is not there. -/
def makeDirectories (tree : FileTree) (place : Location) : List Path → FileTree × Location
  | [] => (tree, place)
  | name :: rest =>
    let next := step place name
    let tree := if (tree.node? next).isSome then tree else tree.put next .directory
    tree.makeDirectories next rest

/-- Makes the directory at a path and those on the way to it. -/
def addDirectory (tree : FileTree) (path : Path) : FileTree :=
  (tree.makeDirectories (tree.start path) (components path)).1

/-- Puts `node` at a path; the directories on the way are made. -/
def addNode (tree : FileTree) (path : Path) (node : Node) : FileTree :=
  let names := components path
  let (tree, place) := tree.makeDirectories (tree.start path) names.dropLast
  tree.put (names.getLast?.elim place (step place)) node

/-! ## Listing the files -/

/-- The bytes of a regular file. -/
def Node.content? : Node → Option (List UInt8)
  | .file content => some content
  | _ => none

/-- The places where something is, each once. -/
def places (tree : FileTree) : List Location :=
  (tree.nodes.map Prod.fst).eraseDups

def relativePath (names : List Path) : Path :=
  [Path.separator].intercalate names

/-- The regular file at `place`, if it is below the working directory. -/
def listed? (tree : FileTree) (place : Location) : Option (Path × List UInt8) :=
  if tree.working.isPrefixOf place then
    ((tree.node? place).bind Node.content?).map fun content =>
      (relativePath (place.drop tree.working.length), content)
  else none

/-- The regular files below the working directory, by their paths. -/
def files (tree : FileTree) : List (Path × List UInt8) :=
  (tree.places.filterMap tree.listed?).mergeSort fun a b => (compare a.1 b.1).isLE

end FileTree

end GlyphTables
