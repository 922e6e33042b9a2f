import GlyphTables.Log
import GlyphTables.Text.Blank

/-!
# Choosing log records

A filter is a list of directives. A directive sets the most detailed level that is shown for the
targets whose names begin with its own, or for all targets; the longest name decides.
-/

namespace GlyphTables.Log

/-- Up to which rank records are shown, for the targets that begin with a name, or for all. -/
structure Directive where
  target? : Option String
  /-- The highest rank that is shown; zero shows nothing. -/
  rank : Nat
  deriving DecidableEq

namespace Directive

/-- The longer the name of a directive, the more it counts; none counts least. -/
def nameLength (directive : Directive) : Nat :=
  directive.target?.elim 0 String.utf8ByteSize

/-- Whether a directive is about a target: names count by their beginnings. -/
def appliesTo (directive : Directive) (target : String) : Bool :=
  directive.target?.elim true fun name => name.toList.isPrefixOf target.toList

end Directive

/-- Directives in the order of the length of their names. -/
abbrev Filter := List Directive

namespace Filter

/-- Whether a record is shown: the last directive that applies decides, and without one nothing is
shown. -/
def admits (filter : Filter) (record : Record) : Bool :=
  match filter.reverse.find? (·.appliesTo record.target) with
  | none => false
  | some directive => record.level.rank ≤ directive.rank

/-! ## Reading a filter -/

/-- The rank at which everything is shown. -/
def highestRank : Nat := 5

/-- The rank that a word stands for, in any letter case. -/
def rankOf? (word : String) : Option Nat :=
  match word.toLower with
  | "off" => some 0
  | "error" => some 1
  | "warn" => some 2
  | "info" => some 3
  | "debug" => some 4
  | "trace" => some highestRank
  | _ => none

/-- A piece of a filter without the blanks around it. -/
def trimmed (text : List Char) : String :=
  String.ofList (Text.trim text)

/-- The directive that `part` stands for, or the piece of it that stands for nothing. -/
def directiveOf (part : String) : Except String Directive :=
  match part.toList.splitOn '=' with
  | [word] =>
    match rankOf? (String.ofList word) with
    | some rank => .ok ⟨none, rank⟩
    | none => .ok ⟨some (String.ofList word), highestRank⟩
  | [name, word] =>
    match trimmed word, rankOf? (trimmed word) with
    | "", _ => .ok ⟨some (String.ofList name), highestRank⟩
    | _, some rank => .ok ⟨some (String.ofList name), rank⟩
    | word, none => .error word
  | _ => .error part

/-- A later directive takes the place of an earlier one for the same target. -/
def add (filter : Filter) (directive : Directive) : Filter :=
  if filter.any fun earlier => earlier.target? == directive.target? then
    filter.map fun earlier =>
      if earlier.target? == directive.target? then directive else earlier
  else filter ++ [directive]

/-- Without any directive only errors are shown. -/
def finish (filter : Filter) : Filter :=
  if filter.isEmpty then [⟨none, Level.error.rank⟩]
  else filter.mergeSort fun a b => a.nameLength ≤ b.nameLength

/-- What is said of a piece that is no part of a filter. -/
def complaint (piece : String) : String :=
  "warning: invalid logging spec '" ++ piece ++ "', ignoring it"

/-- Reads parts separated by commas. What cannot be read is left out, with a complaint. -/
def parse (text : String) : Filter × List String :=
  let parts := ((text.toList.splitOn ',').map trimmed).filter (· != "")
  let (filter, complaints) := parts.foldl (fun (filter, complaints) part =>
    match directiveOf part with
    | .ok directive => (add filter directive, complaints)
    | .error piece => (filter, complaints ++ [complaint piece])) ([], [])
  (finish filter, complaints)

end Filter

end GlyphTables.Log
