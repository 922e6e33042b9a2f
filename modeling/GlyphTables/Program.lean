import GlyphTables.CommandLine
import GlyphTables.Compilation
import GlyphTables.Log.Filter
import GlyphTables.Pfm2sid

/-!
# The program

The program compiles the library of `pfm2sid` into the files that its command line names. It
reports on its way in log lines, and a failure in its last lines.
-/

namespace GlyphTables.Program

/-! ## Lines -/

/-- The level of a record in the width of the longest. -/
def paddedLevel (level : Log.Level) : String :=
  String.ofList (level.name.toList ++ List.replicate (5 - level.name.length) ' ')

/-- Lines after the first are set in. -/
def setIn (text : String) : String :=
  "\n    ".intercalate ((text.toList.splitOn '\n').map String.ofList)

/-- The line of a record; `stamp` says when it was written, and may be empty. -/
def logLine (stamp : String) (record : Log.Record) : String :=
  Terminal.plain .stream
    ("[" ++ stamp ++ paddedLevel record.level ++ " " ++ record.target ++ "] " ++
      setIn record.text ++ "\n")

/-- The lines of the records that the filter lets through, without a time. -/
def logText (filter : Log.Filter) (records : List Log.Record) : String :=
  String.join ((records.filter filter.admits).map (logLine ""))

/-- The last lines of a run that fails; the cause stands below, set in. -/
def failureText (message : String) (cause? : Option String) : String :=
  let cause := cause?.elim "" fun cause => "\n\nCaused by:\n    " ++ cause
  "Error: " ++ message ++ cause ++ "\n"

/-- A line without the carriage return that may stand before its end. -/
def withoutReturn (line : List Char) : List Char :=
  if line.getLast? = some '\r' then line.dropLast else line

/-- The lines of a text, each without its end; the last line need not have one. -/
def textLines (text : String) : List String :=
  let pieces := text.toList.splitOn '\n'
  let last := pieces.getLast?.getD []
  let lines := pieces.dropLast.map withoutReturn
  (if last.isEmpty then lines else lines ++ [last]).map String.ofList

/-! ## Running -/

/-- The filter that is used if none is given. -/
def defaultFilter : String := "info"

/-- Why a run ends without the two files, in words. -/
structure Failure where
  message : String
  cause? : Option String

/-- The words for a failed compilation. -/
def Failure.ofCompileError (e : CompileError) : Failure :=
  ⟨e.message, e.cause?.map FileError.message⟩

/-- What a run leaves on the terminal, and its exit code. -/
structure Answer where
  code : Nat
  stdout : String
  stderr : String

/-- What a run leaves behind. -/
structure Report extends Answer where
  tree : FileTree

/-- The last word of a run that succeeded. -/
def closingRecord (outputs : OutputPaths) : Log.Record :=
  ⟨.info, Compilation.logTarget,
    "generated \"" ++ outputs.header.display ++ "\" and \"" ++ outputs.source.display ++ "\""⟩

/-- Compiles the library into the files that belong to `path`, wherever these are. -/
def produce {m : Type → Type} [Monad m] (actions : Compilation.Actions Failure m) (path : Path) :
    m Unit := do
  let made := Pfm2sid.library
  made.records.forM actions.note
  match made.outcome with
  | .error e => actions.fail ⟨e.message, e.cause?⟩
  | .ok library =>
    let outputs ← Compilation.carryOut (actions.under .ofCompileError) library path
    actions.note (closingRecord outputs)

/-- What the log and the outcome of a run come to on the terminal. -/
def answer (shown : String) : Except Failure Unit → Answer
  | .ok () => ⟨0, "", shown⟩
  | .error e => ⟨1, "", shown ++ failureText e.message e.cause?⟩

/-- A run up to the point where `path` is the output. -/
def compile (tree : FileTree) (path : Path) (shown : List Log.Record → String) : Report :=
  let step := produce (Compilation.onTree .ofCompileError) path tree
  ⟨answer (shown step.result.records) step.result.outcome, step.tree⟩

/-- The output that the command line of the program `name` asks for, or the answer to a command line
that asks for none. -/
def output (name : String) (arguments : List String) : Except Answer Path :=
  match CommandLine.parse arguments with
  | .ok path => .ok (Utf8.encode path)
  | .error rejection =>
    let message := rejection.message .stream (CommandLine.programName (some name))
    if rejection.exitCode = 0 then .error ⟨0, message, ""⟩
    else .error ⟨rejection.exitCode, "", message⟩

/-- What the program `name` does, given the arguments after its name and a log filter. -/
def run (name : String) (arguments : List String) (filter? : Option String) (tree : FileTree) :
    Report :=
  let (filter, complaints) := Log.Filter.parse (filter?.getD defaultFilter)
  let warnings := String.join (complaints.map (· ++ "\n"))
  let report : Report :=
    match output name arguments with
    | .error answer => ⟨answer, tree⟩
    | .ok path => compile tree path (logText filter)
  { report with stderr := warnings ++ report.stderr }

end GlyphTables.Program
