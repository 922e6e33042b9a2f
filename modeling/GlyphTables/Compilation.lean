import GlyphTables.Cpp.Buffer
import GlyphTables.Cpp.File
import GlyphTables.FileTree

/-!
# Compiling a library into files

The header is written first, then the source. The first failure ends the compilation; what has
been written before stays. The order of it all is written down once, for whatever the files are; here
they are those of a file tree.

* `writeNoted_onTree`, `writeAll_onTree` : what becomes of the files of a tree;
* `run_of_baseName?_eq_none` : without a usable name nothing is touched.
-/

namespace GlyphTables

/-- Why a compilation ends without both files. -/
inductive CompileError where
  | invalidPath (path : Path)
  | creating (path : Path) (cause : FileError)
  | writing (path : Path) (cause : FileError)
  /-- A number has no literal. -/
  | unwritable
  deriving DecidableEq

namespace CompileError

/-- What is said of a file that cannot be opened, before the cause. -/
def creatingText (path : Path) : String :=
  "creating " ++ path.display

/-- What is said of a file that does not take its text, before the cause. -/
def writingText (path : Path) : String :=
  "writing " ++ path.display

/-- The words for an error, without its cause. -/
def message : CompileError → String
  | invalidPath path => "invalid output path: " ++ path.display
  | creating path _ => creatingText path
  | writing path _ => writingText path
  | unwritable => "a number has no literal"

/-- What the system says of the failure, if it was the system that failed. -/
def cause? : CompileError → Option FileError
  | creating _ cause => some cause
  | writing _ cause => some cause
  | _ => none

end CompileError

namespace Compilation

def logTarget : String := "resource_compiler"

/-- The record of a file that is complete. -/
def writtenRecord (path : Path) : Log.Record :=
  ⟨.info, logTarget, "wrote " ++ path.display⟩

/-! ## The order of a compilation -/

/-- The files that belong to `path` with what goes into them, in the order of writing. -/
def plan (library : Library) (path : Path) : Except CompileError (List (Path × Cpp.Draft)) :=
  match path.baseName? with
  | none => .error (.invalidPath path)
  | some baseName =>
    let outputs := OutputPaths.ofPath path
    .ok [(outputs.header, Cpp.header library baseName),
      (outputs.source, Cpp.source library baseName)]

/-- What a compilation does with the world around it. Failures are of type `ε`, and end all that
follows in `m`. -/
structure Actions (ε : Type) (m : Type → Type) where
  /-- Makes the file at a path and fills it with the text of a draft. -/
  write : Path → Cpp.Draft → m Unit
  /-- Leaves a record. -/
  note : Log.Record → m Unit
  fail {α : Type} : ε → m α

/-- The same actions, for errors that are put as those of another kind. -/
def Actions.under {ε ε' : Type} {m : Type → Type} (actions : Actions ε m) (put : ε' → ε) :
    Actions ε' m :=
  ⟨actions.write, actions.note, fun e => actions.fail (put e)⟩

section Order

variable {m : Type → Type} [Monad m]

/-- Writes one file and tells of it. -/
def writeNoted {ε : Type} (actions : Actions ε m) (path : Path) (draft : Cpp.Draft) : m Unit := do
  actions.write path draft
  actions.note (writtenRecord path)

/-- Writes files one after the other. -/
def writeAll {ε : Type} (actions : Actions ε m) : List (Path × Cpp.Draft) → m Unit
  | [] => pure ()
  | (path, draft) :: rest => do
    writeNoted actions path draft
    writeAll actions rest

/-- Writes the header and the source of `library` to the files that belong to `path`. -/
def carryOut (actions : Actions CompileError m) (library : Library) (path : Path) :
    m OutputPaths :=
  match plan library path with
  | .error e => actions.fail e
  | .ok files => do
    writeAll actions files
    return OutputPaths.ofPath path

end Order

/-! ## In a file tree -/

/-- What a step leaves behind and how it went. -/
structure Step (ε α : Type) where
  tree : FileTree
  result : Logged ε α

/-- Goes on where a step has succeeded, from the tree that it has left. -/
def Step.andThen {ε α β : Type} (step : Step ε α) (next : FileTree → α → Step ε β) : Step ε β :=
  match step.result.outcome with
  | .error e => ⟨step.tree, ⟨step.result.records, .error e⟩⟩
  | .ok a =>
    let last := next step.tree a
    ⟨last.tree, ⟨step.result.records ++ last.result.records, last.result.outcome⟩⟩

/-- A computation that works on a file tree. -/
def Run (ε α : Type) : Type :=
  FileTree → Step ε α

instance (ε : Type) : Monad (Run ε) where
  pure a := fun tree => ⟨tree, pure a⟩
  bind run next := fun tree => (run tree).andThen fun tree a => next a tree

/-- Writes `draft` into the open file at `place`. -/
def fill (tree : FileTree) (place : Location) (path : Path) (draft : Cpp.Draft) :
    Step CompileError Unit :=
  let node := (tree.node? place).getD (.file [])
  let delivery := Cpp.pour node.takes [] draft
  let tree := tree.put place (node.append delivery.written)
  match delivery.ending with
  | .complete => ⟨tree, pure ()⟩
  | .full => ⟨tree, .fail (.writing path .noSpace)⟩
  | .refused => ⟨tree, .fail .unwritable⟩

/-- Opens the file at `path` and fills it. -/
def writeFile (tree : FileTree) (path : Path) (draft : Cpp.Draft) : Step CompileError Unit :=
  match tree.create path with
  | .error cause => ⟨tree, .fail (.creating path cause)⟩
  | .ok (place, tree) => fill tree place path draft

/-- The actions of a compilation in a file tree, with errors put as `put` says. -/
def onTree {ε : Type} (put : CompileError → ε) : Actions ε (Run ε) where
  write path draft := fun tree =>
    let step := writeFile tree path draft
    ⟨step.tree, step.result.mapError put⟩
  note record := fun tree => ⟨tree, .note record⟩
  fail e := fun tree => ⟨tree, .fail e⟩

/-- In a tree, a file is written as `writeFile` has it, and then there is a record of it. -/
theorem writeNoted_onTree (tree : FileTree) (path : Path) (draft : Cpp.Draft) :
    writeNoted (onTree id) path draft tree =
      (writeFile tree path draft).andThen fun tree _ => ⟨tree, .note (writtenRecord path)⟩ := by
  have same : (onTree id).write path draft tree = writeFile tree path draft := by
    simp only [onTree, Logged.mapError_id]
  have unfolded : writeNoted (onTree id) path draft tree =
      ((onTree id).write path draft tree).andThen fun tree _ =>
        ⟨tree, .note (writtenRecord path)⟩ :=
    rfl
  rw [unfolded, same]

/-- The files of a tree are written one after the other. -/
theorem writeAll_onTree (tree : FileTree) (path : Path) (draft : Cpp.Draft)
    (rest : List (Path × Cpp.Draft)) :
    writeAll (onTree id) ((path, draft) :: rest) tree =
      (writeNoted (onTree id) path draft tree).andThen fun tree _ =>
        writeAll (onTree id) rest tree :=
  rfl

/-- Writes the header and the source of `library` to the files that belong to `path` in a tree. -/
def run (tree : FileTree) (library : Library) (path : Path) : Step CompileError OutputPaths :=
  carryOut (onTree id) library path tree

theorem run_of_baseName?_eq_none {path : Path} (h : path.baseName? = none) (tree : FileTree)
    (library : Library) : run tree library path = ⟨tree, .fail (.invalidPath path)⟩ := by
  simp only [run, carryOut, plan, h]
  rfl

end Compilation

end GlyphTables
