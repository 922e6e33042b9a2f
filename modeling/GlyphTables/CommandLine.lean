import GlyphTables.CommandLine.Similarity
import GlyphTables.OutputPath
import GlyphTables.Text.Terminal

/-!
# The command line

The program takes the path of its output and knows the option for help.
-/

namespace GlyphTables.CommandLine

/-! ## Arguments -/

/-- One word of the command line, by its shape. -/
inductive Argument where
  /-- Two dashes: all that follows are values. -/
  | endOfOptions
  | long (name : String) (value? : Option String)
  | short (name : Char)
  | value (text : String)
  deriving DecidableEq

/-- The name of a long option and what stands after the equals sign. -/
def splitValue (body : List Char) : Argument :=
  let name := String.ofList (body.takeWhile (· != '='))
  match body.dropWhile (· != '=') with
  | [] => .long name none
  | _ :: value => .long name (some (String.ofList value))

/-- A word that starts with a dash is an option, unless it is the dash alone. -/
def Argument.ofString (text : String) : Argument :=
  match text.toList with
  | ['-', '-'] => .endOfOptions
  | '-' :: '-' :: body => splitValue body
  | '-' :: name :: _ => .short name
  | _ => .value text

/-! ## Reading the command line -/

/-- What to do about an argument that is not known. -/
inductive Advice where
  | none
  | useHelpOption
  /-- Write it after two dashes. -/
  | passAsValue
  deriving DecidableEq

/-- Why there is no output path. -/
inductive Rejection where
  | help
  | nothingGiven
  | unknownArgument (argument : String) (advice : Advice)
  | emptyOutput
  | unexpectedValue (value : String)
  deriving DecidableEq

/-- The only long option that there is. -/
def helpName : String := "help"

/-- Whether the output that has been seen can be used. -/
def checkOutput : Option String → Except Rejection Unit
  | some "" => .error .emptyOutput
  | _ => .ok ()

/-- An option ends the reading, after `output?` has been seen. -/
def rejectLong (output? : Option String) (name : String) (value? : Option String) : Rejection :=
  if name = helpName then
    match value?, checkOutput output? with
    | some value, _ => .unexpectedValue value
    | none, .error rejection => rejection
    | none, .ok () => .help
  else if isSimilar name.toList helpName.toList then
    .unknownArgument ("--" ++ name) .useHelpOption
  else .unknownArgument ("--" ++ name) .passAsValue

/-- A short option ends the reading too; only its first letter counts. -/
def rejectShort (output? : Option String) (name : Char) : Rejection :=
  if name = 'h' then
    match checkOutput output? with
    | .error rejection => rejection
    | .ok () => .help
  else .unknownArgument (String.ofList ['-', name]) .passAsValue

/-- Reads values only; `output?` has been seen. -/
def readValues (output? : Option String) : List String → Except Rejection String
  | [] =>
    match output? with
    | none => .error .nothingGiven
    | some output => (checkOutput output?).map fun _ => output
  | argument :: rest =>
    match output? with
    | none => readValues (some argument) rest
    | some _ => .error (.unknownArgument argument .none)

/-- Reads options and values; `output?` has been seen. -/
def read (output? : Option String) : List String → Except Rejection String
  | [] => readValues output? []
  | argument :: rest =>
    match Argument.ofString argument with
    | .endOfOptions => readValues output? rest
    | .long name value? => .error (rejectLong output? name value?)
    | .short name => .error (rejectShort output? name)
    | .value text =>
      match output? with
      | none => read (some text) rest
      | some _ => .error (.unknownArgument text .none)

/-- The output that the command line asks for; a lone value is always that. -/
def parse (arguments : List String) : Except Rejection String :=
  read none arguments

/-! ## Messages -/

/-- The name of the program where its call does not tell it. -/
def defaultName : String := "resource-compiler"

/-- The name under which the program was called. -/
def programName (called? : Option String) : String :=
  let name? := called?.bind fun called => (Path.fileName? (Utf8.encode called)).bind Utf8.decode?
  name?.getD defaultName

/-! A message is made of pieces. What comes from outside is a piece of its own. -/

def usage (program : String) : List String :=
  ["Usage: ", program, " <output>\n"]

def usageWithHelp (program : String) : List String :=
  ["Usage: ", program, " --help <output>\n"]

/-- What is shown to who asks for help, or gives no argument at all. -/
def helpText (program : String) : List String :=
  ["Compiles the `pfm2sid` resource definitions into C++ sources\n\n"] ++ usage program ++
    ["\nArguments:\n",
      "  <output>  Destination file; its extension is replaced by `.h` and `.cc`\n",
      "\nOptions:\n", "  -h, --help  Print help\n"]

/-- The last words of a rejection that is no help. -/
def hint : List String :=
  ["\nFor more information, try '--help'.\n"]

/-- What is said after the unknown argument: the advice, and how the program is called. -/
def Advice.pieces (program argument : String) : Advice → List String
  | .none => ["\n"] ++ usage program
  | .useHelpOption =>
    ["\n  tip: a similar argument exists: '--help'\n\n"] ++ usageWithHelp program
  | .passAsValue =>
    ["\n  tip: to pass '", argument, "' as a value, use '-- ", argument, "'\n\n"] ++ usage program

/-- The message of a rejection, what comes from outside in pieces of its own. -/
def Rejection.pieces (program : String) : Rejection → List String
  | .help => helpText program
  | .nothingGiven => helpText program
  | .unknownArgument argument advice =>
    ["error: unexpected argument '", argument, "' found\n"] ++
      advice.pieces program argument ++ hint
  | .emptyOutput => ["error: a value is required for '<output>' but none was supplied\n"] ++ hint
  | .unexpectedValue value =>
    ["error: unexpected value '", value, "' for '--help' found; no more were expected\n\n"] ++
      usageWithHelp program ++ hint

/-- The message as it is shown. Each piece is cleaned by itself, so no sequence in an argument
reaches into the text around it. -/
def Rejection.message (medium : Terminal.Medium) (program : String) (rejection : Rejection) :
    String :=
  Terminal.plainPieces medium (rejection.pieces program)

/-- Help that was asked for is no failure. -/
def Rejection.exitCode : Rejection → Nat
  | .help => 0
  | _ => 2

end GlyphTables.CommandLine
