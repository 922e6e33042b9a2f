/-!
# Lines

A line ends with a line feed, and a carriage return right before it belongs to the end. A carriage
return anywhere else is part of the line, and the last line need not have an end.

* `lines_eq_nil_iff` : only the empty text has no line.
-/

namespace GlyphTables.Text

/-- The lines of a text without their ends. -/
def lines : List Char → List (List Char)
  | [] => []
  | '\n' :: rest => [] :: lines rest
  | '\r' :: '\n' :: rest => [] :: lines rest
  | c :: rest =>
    match lines rest with
    | [] => [[c]]
    | line :: others => (c :: line) :: others

/-- Only the empty text has no line. -/
theorem lines_eq_nil_iff (text : List Char) : lines text = [] ↔ text = [] := by
  fun_induction lines text <;> simp

end GlyphTables.Text
