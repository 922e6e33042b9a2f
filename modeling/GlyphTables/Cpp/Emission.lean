import GlyphTables.Cpp.File
import GlyphTables.Cpp.Sink

/-!
# Emitting the files

A file is written piece by piece to a writer, and the first piece that is not taken whole ends the
writing. `header` and `source` are what the pieces make up; here is the order in which they are
written.

* `put_append` : pieces that are written one after the other are as good as one;
* `putLine_eq` : so a line of pieces is as good as the whole line;
* `enlist_of_mem`, `enlist_of_notMem` : a directive is listed where it is first asked for.
-/

namespace GlyphTables.Cpp

/-- A writer as it stands: what it has taken, and how much it still takes before it fails; `none` is
room without end. -/
structure Writer where
  written : List UInt8
  room : Option Nat

/-- What ends the writing of a file before its end. -/
inductive Stop where
  /-- The writer has failed. -/
  | full
  /-- There is no literal for a number. -/
  | refused
  deriving DecidableEq

/-- A program that writes to a writer and may be stopped. -/
abbrev Write := ExceptT Stop (StateM Writer)

/-! ## Pieces and lines -/

/-- The writer takes as much of `text` as it can. Once it has failed it takes everything, so whoever
went on writing would leave a trace. -/
def put (text : String) : Write Unit := fun writer =>
  let bytes := Utf8.encode text
  match writer.room with
  | none => (.ok (), ⟨writer.written ++ bytes, none⟩)
  | some n =>
    if bytes.length ≤ n then (.ok (), ⟨writer.written ++ bytes, some (n - bytes.length)⟩)
    else (.error .full, ⟨writer.written ++ bytes.take n, none⟩)

/-- A line that is written in pieces, and its end. -/
def putLine (pieces : List String) : Write Unit := do
  forM pieces put
  put "\n"

theorem put_of_fits {text : String} {n : Nat} (h : (Utf8.encode text).length ≤ n)
    (written : List UInt8) :
    put text ⟨written, some n⟩ =
      (.ok (), ⟨written ++ Utf8.encode text, some (n - (Utf8.encode text).length)⟩) :=
  if_pos h

theorem put_of_not_fits {text : String} {n : Nat} (h : n < (Utf8.encode text).length)
    (written : List UInt8) :
    put text ⟨written, some n⟩ = (.error .full, ⟨written ++ (Utf8.encode text).take n, none⟩) :=
  if_neg (Nat.not_le.2 h)

theorem bind_of_ok {α β : Type} {write : Write α} {writer after : Writer} {a : α}
    (h : write writer = (.ok a, after)) (next : α → Write β) :
    (write >>= next) writer = next a after := by
  change (write writer >>= fun (outcome, after) => ExceptT.bindCont next outcome after) = _
  rw [h]
  rfl

/-- After a failure nothing more is written. -/
theorem bind_of_error {α β : Type} {write : Write α} {writer after : Writer} {stop : Stop}
    (h : write writer = (.error stop, after)) (next : α → Write β) :
    (write >>= next) writer = (.error stop, after) := by
  change (write writer >>= fun (outcome, after) => ExceptT.bindCont next outcome after) = _
  rw [h]
  rfl

theorem put_empty : put "" = pure () := by
  funext ⟨written, room⟩
  cases room with
  | none =>
    change (Except.ok (), Writer.mk (written ++ []) none) = (.ok (), ⟨written, none⟩)
    rw [List.append_nil]
  | some n =>
    rw [put_of_fits (Nat.zero_le n)]
    change (Except.ok (), Writer.mk (written ++ []) (some n)) = (.ok (), ⟨written, some n⟩)
    rw [List.append_nil]

/-- It makes no difference to a writer where a text is cut into pieces. -/
theorem put_append (s t : String) : (do put s; put t) = put (s ++ t) := by
  funext ⟨written, room⟩
  have joined := Utf8.encode_append s t
  have length : (Utf8.encode (s ++ t)).length = (Utf8.encode s).length + (Utf8.encode t).length := by
    rw [joined, List.length_append]
  cases room with
  | none =>
    change (Except.ok (), Writer.mk ((written ++ _) ++ _) none) = (.ok (), ⟨written ++ _, none⟩)
    rw [joined, List.append_assoc]
  | some n =>
    by_cases first : (Utf8.encode s).length ≤ n
    · rw [bind_of_ok (put_of_fits first written)]
      by_cases second : (Utf8.encode t).length ≤ n - (Utf8.encode s).length
      · rw [put_of_fits second, put_of_fits (by omega), joined, List.append_assoc,
          List.length_append, Nat.sub_sub]
      · rw [put_of_not_fits (Nat.not_le.1 second), put_of_not_fits (by omega), joined,
          List.take_append, List.take_of_length_le first, List.append_assoc]
    · -- the writer fails within the first text and is offered nothing of the second
      have first := Nat.not_le.1 first
      rw [bind_of_error (put_of_not_fits first written), put_of_not_fits (by omega), joined,
        List.take_append_of_le_length (Nat.le_of_lt first)]

theorem forM_put (pieces : List String) : forM pieces put = put (String.join pieces) := by
  induction pieces with
  | nil => exact put_empty.symm
  | cons piece rest ih => rw [List.forM_cons, ih, put_append, String.join_cons]

/-- The pieces of a line come to the line as a whole. -/
theorem putLine_eq (pieces : List String) : putLine pieces = put (String.join pieces ++ "\n") := by
  rw [putLine, forM_put, put_append]

/-! ## The scope -/

/-- The start of the namespace, if there is one. -/
def writeOpening (scope : String) : Write Unit :=
  if scope.isEmpty then pure ()
  else do
    putLine ["namespace ", scope, " \x7b"]
    putLine []

def writeClosing (scope : String) : Write Unit :=
  if scope.isEmpty then pure ()
  else do
    putLine []
    putLine ["\x7d // namespace ", scope]

/-! ## The tables -/

/-- Writes a table at its index in the library; an empty line keeps it apart from the one before. -/
def writeApart (write : Table → Write Unit) (place : Table × Nat) : Write Unit := do
  if place.2 ≠ 0 then putLine [] else pure ()
  write place.1

def writeTables (write : Table → Write Unit) (tables : List Table) : Write Unit :=
  forM tables.zipIdx (writeApart write)

/-- The enumeration of an enumerated table, with an empty line after it. -/
def writeEnumeration (table : Table) : Write Unit :=
  match table.metadata.kind with
  | .array => pure ()
  | .enumerated => do
    putLine ["enum ", table.enumName, " \x7b"]
    forM table.entries fun entry => putLine ["  ", table.symbol entry, ","]
    putLine ["  ", countExpression table]
    putLine ["\x7d; // enum ", table.enumName]
    putLine []

def writeExtern (d : Declarator) : Write Unit :=
  putLine ["extern const ", d.elementType, " ", d.name, "[", d.bound, "];"]

/-- The declarations of the arrays of the entries, if they are aliases. -/
def writeAliases (table : Table) : Write Unit :=
  if table.metadata.useAliases then do
    putLine []
    forM table.entries fun entry => writeExtern (entryDeclarator table entry)
  else pure ()

/-- A table in the header. -/
def writeDeclaration (table : Table) : Write Unit := do
  writeEnumeration table
  writeExtern (tableDeclarator table)
  writeAliases table

/-- The numbers of an entry. The writing stops at numbers without literals, before any piece of
their line. -/
def writeData (table : Table) (entry : Table.Entry) : Write Unit :=
  let linkage := if table.metadata.useAliases then "" else "static "
  let d := entryDeclarator table entry
  match entry.array.literals? with
  | none => throw .refused
  | some literals =>
    putLine [linkage, "const ", d.elementType, " ", d.name, "[", d.bound, "] = \x7b ",
      ", ".intercalate literals, " \x7d;"]

/-- An element of the array of a table, below the symbol of its entry. -/
def writeRow (table : Table) (entry : Table.Entry) : Write Unit := do
  if table.metadata.kind = .enumerated then putLine ["  // ", table.symbol entry] else pure ()
  putLine ["  ", table.dataName entry, ","]

/-- A table in the source: the numbers first, since the array points to them. -/
def writeDefinition (table : Table) : Write Unit := do
  let d := tableDeclarator table
  forM table.entries (writeData table)
  putLine []
  putLine ["const ", d.elementType, " ", d.name, "[", d.bound, "] = \x7b"]
  forM table.entries (writeRow table)
  putLine ["\x7d;"]

/-! ## The files -/

/-- The text at the top of the header, without the blanks at its end. -/
def writePreamble (preamble : String) : Write Unit :=
  if preamble.isEmpty then pure ()
  else do
    putLine [String.ofList (Text.trimEnd preamble.toList)]
    putLine []

/-- All include directives in the order in which they are asked for. -/
def directives (library : Library) : List String :=
  library.includes ++ library.tables.flatMap fun table => table.metadata.includes

/-- Lists a directive unless it is listed already. -/
def enlist (listed : List String) (directive : String) : List String :=
  if listed.contains directive then listed else listed ++ [directive]

theorem enlist_of_mem {listed : List String} {directive : String} (h : directive ∈ listed) :
    enlist listed directive = listed :=
  if_pos (List.contains_iff_mem.2 h)

theorem enlist_of_notMem {listed : List String} {directive : String} (h : directive ∉ listed) :
    enlist listed directive = listed ++ [directive] :=
  if_neg (mt List.contains_iff_mem.1 h)

/-- The include directives, with an empty line after them. -/
def writeIncludes (directives : List String) : Write Unit :=
  if directives.isEmpty then pure ()
  else do
    forM directives fun directive => putLine [directive]
    putLine []

/-- The header piece by piece. -/
def writeHeader (library : Library) (baseName : String) : Write Unit := do
  let guard := includeGuard library.target baseName
  writePreamble library.preamble
  putLine ["#ifndef ", guard]
  putLine ["#define ", guard]
  putLine []
  writeIncludes ((directives library).foldl enlist [])
  writeOpening library.scope
  writeTables writeDeclaration library.tables
  writeClosing library.scope
  putLine []
  putLine ["#endif // ", guard]

/-- The source piece by piece; it includes the header under the name of its base. -/
def writeSource (library : Library) (baseName : String) : Write Unit := do
  putLine ["#include \"", baseName, ".h\""]
  putLine []
  writeOpening library.scope
  writeTables writeDefinition library.tables
  writeClosing library.scope

end GlyphTables.Cpp
