import GlyphTables.Program
import Std.Time.DateTime

/-!
# The executable

Runs the program on the files of the machine. All texts and decisions are those of
`GlyphTables.Program`.
-/

namespace GlyphTables.Executable

def padded (width : Nat) (n : Nat) : String :=
  String.ofList ((Literal.natural n).toList.leftpad width '0')

/-- The time in UTC to the second. -/
def timeStamp : IO String := do
  let t := Std.Time.DateTime.ofTimestampWithZone (← Std.Time.Timestamp.now) .UTC
  let date := padded 4 t.year.toInt.toNat ++ "-" ++ padded 2 t.month.toNat ++ "-" ++
    padded 2 t.day.toNat
  let time := padded 2 t.hour.toNat ++ ":" ++ padded 2 t.minute.toNat ++ ":" ++
    padded 2 t.second.toNat
  return date ++ "T" ++ time ++ "Z "

/-- Writes the line of a record at once, if the filter lets it through. -/
def report (filter : Log.Filter) (record : Log.Record) : IO Unit := do
  if filter.admits record then
    IO.eprint (Program.logLine (← timeStamp) record)

/-- The system's words for an error. -/
def causeText : IO.Error → String
  | .noFileOrDirectory _ code details => s!"{details} (os error {code})"
  | .inappropriateType _ code details => s!"{details} (os error {code})"
  | .resourceExhausted _ code details => s!"{details} (os error {code})"
  | .permissionDenied _ code details => s!"{details} (os error {code})"
  | .invalidArgument _ code details => s!"{details} (os error {code})"
  | .noSuchThing _ code details => s!"{details} (os error {code})"
  | .alreadyExists _ code details => s!"{details} (os error {code})"
  | .unsupportedOperation code details => s!"{details} (os error {code})"
  | .hardwareFault code details => s!"{details} (os error {code})"
  | .resourceBusy code details => s!"{details} (os error {code})"
  | .otherError code details => s!"{details} (os error {code})"
  | e => toString e

/-- Does something on the machine; if that fails, `message` says what was tried. -/
def attempt {α : Type} (message : String) (action : IO α) : ExceptT Program.Failure IO α :=
  ExceptT.mk do
    match ← action.toBaseIO with
    | .ok a => return .ok a
    | .error e => return .error ⟨message, causeText e⟩

/-- Makes the file at `path` and hands it the pieces of a draft. -/
def writeFile (path : Path) (draft : Cpp.Draft) : ExceptT Program.Failure IO Unit := do
  let handle ← attempt (CompileError.creatingText path) (IO.FS.Handle.mk path.display .write)
  let given := Cpp.handover [] draft
  attempt (CompileError.writingText path) do
    for piece in given.pieces do
      handle.write piece.toByteArray
    handle.flush
  match given.left? with
  | none => return
  | some left =>
    discard (handle.write left.toByteArray *> handle.flush).toBaseIO
    throw (.ofCompileError .unwritable)

/-- The actions of a compilation on the files of the machine. -/
def onMachine (filter : Log.Filter) : Compilation.Actions Program.Failure
    (ExceptT Program.Failure IO) where
  write := writeFile
  note record := report filter record
  fail := throw

/-- Says an answer on the terminal, and returns its code. -/
def say (answer : Program.Answer) : IO UInt32 := do
  IO.print answer.stdout
  IO.eprint answer.stderr
  return answer.code.toUInt32

/-- Does what the command line asks for, and returns the exit code. -/
def run (arguments : List String) : IO UInt32 := do
  let (filter, complaints) :=
    Log.Filter.parse ((← IO.getEnv "RUST_LOG").getD Program.defaultFilter)
  for complaint in complaints do
    IO.eprintln complaint
  match Program.output (← IO.appPath).toString arguments with
  | .error answer => say answer
  | .ok path => say (Program.answer "" (← (Program.produce (onMachine filter) path).run))

end GlyphTables.Executable

/-- The entry point of the executable. -/
def main (arguments : List String) : IO UInt32 :=
  GlyphTables.Executable.run arguments
