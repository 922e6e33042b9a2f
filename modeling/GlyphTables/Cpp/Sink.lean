import GlyphTables.Cpp.Block
import GlyphTables.Text.Utf8

/-!
# Writing a draft

A sink takes bytes until it is full. A draft is written line by line; a line that cannot be
written ends the writing before any of its bytes.
-/

namespace GlyphTables.Cpp

/-- How the writing of a draft ends. -/
inductive Ending where
  | complete
  /-- The sink took no more. -/
  | full
  /-- A line could not be written. -/
  | refused
  deriving DecidableEq

/-- What of a draft has been written, and how it ended. -/
structure Delivery where
  written : List UInt8
  ending : Ending
  deriving DecidableEq

def lineBytes (line : String) : List UInt8 :=
  Utf8.encode (line ++ "\n")

/-- Whether `n` bytes fit into `room`; `none` is room without end. -/
def fits (room : Option Nat) (n : Nat) : Bool :=
  match room with
  | none => true
  | some k => n ≤ k

/-- Writes a draft to a sink with `room` bytes to spare. Of a line that does not fit, as much is
written as does. -/
def deliver (room : Option Nat) : Draft → Delivery
  | [] => ⟨[], .complete⟩
  | none :: _ => ⟨[], .refused⟩
  | some line :: rest =>
    let bytes := lineBytes line
    if fits room bytes.length then
      let next := deliver (room.map (· - bytes.length)) rest
      ⟨bytes ++ next.written, next.ending⟩
    else ⟨bytes.take (room.getD 0), .full⟩

/-- The whole text of a draft, if each of its lines can be written. -/
def text? (draft : Draft) : Option String :=
  (draft.mapM id).map fun lines => String.join (lines.map (· ++ "\n"))

end GlyphTables.Cpp
