import GlyphTables.Glyph
import GlyphTables.Proofs.Text.Layout

/-!
# Reading a glyph

Reading trims the text, counts its lines and sets row after row of a blank glyph until a line is not
as wide as a glyph. What it comes to can be said of the rows of the text at once.

* `ofRows_eq_ok_iff` : which rows make a glyph, and which glyph;
* `setRows_drawn` : after any number of lines, the glyph shows the rows read so far;
* `parse_eq_ofRows` : reading a text is reading its rows;
* `parse_by_rows` : so the layout of the text is immaterial.
-/

namespace GlyphTables.Glyph

/-! ## What rows say -/

/-- Dot `c` of row `r` is set where the row `r` has the mark at `c`. -/
def drawn (rows : List (List Char)) : Glyph :=
  ⟨Vector.ofFn fun r => Vector.ofFn fun c => decide ((rows.getD r [])[c.toNat]? = some mark)⟩

/-- The first row that is not as wide as a glyph. -/
def misfit? (rows : List (List Char)) : Option Nat :=
  rows.findIdx? fun row => row.length != width

/-- The glyph with the given rows, or what is wrong with them: their number before their widths. -/
def ofRows (rows : List (List Char)) : Except ShapeError Glyph :=
  if rows.length ≠ height then .error (.rowCount rows.length)
  else
    match misfit? rows with
    | some r => .error (.rowWidth r (rows.getD r []).length)
    | none => .ok (drawn rows)

theorem misfit?_eq_none_iff (rows : List (List Char)) :
    misfit? rows = none ↔ ∀ row ∈ rows, row.length = width := by
  simp [misfit?, List.findIdx?_eq_none_iff]

theorem misfit?_cons (row : List Char) (rows : List (List Char)) :
    misfit? (row :: rows) =
      if row.length = width then (misfit? rows).map (· + 1) else some 0 := by
  rw [misfit?, List.findIdx?_cons, misfit?]
  by_cases fits : row.length = width <;> simp [fits]

/-- A glyph is drawn from as many rows as it is high, each as wide as it is. -/
theorem ofRows_eq_ok_iff (rows : List (List Char)) (glyph : Glyph) :
    ofRows rows = .ok glyph ↔
      rows.length = height ∧ (∀ row ∈ rows, row.length = width) ∧ drawn rows = glyph := by
  rw [← misfit?_eq_none_iff]
  unfold ofRows
  by_cases count : rows.length = height
  · cases misfit? rows <;> simp [count]
  · simp [count]

/-! ## The loop over the lines -/

theorem drawn_nil : drawn [] = blank := by
  refine congrArg Glyph.mk (Vector.ext fun r hr => Vector.ext fun c hc => ?_)
  simp

theorem getD_concat_of_ne (done : List (List Char)) (row : List Char) {r : Nat}
    (h : done.length ≠ r) : (done ++ [row]).getD r [] = done.getD r [] := by
  rw [List.getD_eq_getElem?_getD, List.getD_eq_getElem?_getD, List.getElem?_append]
  split
  · rfl
  · have beyond : done.length < r := by omega
    rw [List.getElem?_eq_none (by simp; omega), List.getElem?_eq_none (by omega)]

/-- One more row draws the next line of the glyph. -/
theorem setRow_drawn (done : List (List Char)) (row : List Char) :
    (drawn done).setRow done.length (readRow row) = drawn (done ++ [row]) := by
  refine congrArg Glyph.mk (Vector.ext fun r hr => ?_)
  rw [Vector.getElem_setIfInBounds hr]
  simp only [drawn, Vector.getElem_ofFn]
  by_cases here : done.length = r
  · subst here
    rw [if_pos rfl]
    refine Vector.ext fun c hc => ?_
    simp [readRow, Bool.beq_eq_decide_eq]
  · rw [if_neg here, getD_concat_of_ne done row here]

/-- Where the rows `done` have been read, the lines `todo` either go on from them or end in the first
of them that is not as wide as a glyph. -/
theorem setRows_drawn (done todo : List (List Char)) :
    (drawn done).setRows done.length todo =
      match misfit? (todo.map Text.trim) with
      | some i => .error (.rowWidth (done.length + i) ((todo.map Text.trim).getD i []).length)
      | none => .ok (drawn (done ++ todo.map Text.trim)) := by
  induction todo generalizing done with
  | nil => simp [setRows, misfit?]
  | cons line todo ih =>
    rw [setRows, List.map_cons, misfit?_cons]
    by_cases fits : (Text.trim line).length = width
    · have next := ih (done ++ [Text.trim line])
      rw [← setRow_drawn, List.length_append, List.length_singleton] at next
      rw [if_neg (not_not.2 fits), if_pos fits, next]
      cases misfit? (todo.map Text.trim) with
      | none => simp
      | some i => simp [Nat.add_right_comm, Nat.add_assoc]
    · rw [if_pos fits, if_neg fits]
      rfl

/-- **Reading a text is reading its rows.** -/
theorem parse_eq_ofRows (text : String) : parse text = ofRows (Text.rows text.toList) := by
  have count : (Text.lines (Text.trim text.toList)).length = (Text.rows text.toList).length := by
    rw [← Text.map_trim_lines_trim, List.length_map]
  have loop := setRows_drawn [] (Text.lines (Text.trim text.toList))
  rw [drawn_nil, Text.map_trim_lines_trim] at loop
  simp only [parse, ofRows, count]
  split
  · rfl
  · rw [show (0 : Nat) = ([] : List (List Char)).length from rfl, loop]
    cases misfit? (Text.rows text.toList) <;> simp

/-- Nothing but the rows of a text counts. -/
theorem parse_congr {a b : String} (h : Text.rows a.toList = Text.rows b.toList) :
    parse a = parse b := by
  rw [parse_eq_ofRows, parse_eq_ofRows, h]

/-- **Only the rows of a text matter.** Reading it is reading its rows, and neither blanks around the
text nor blanks around its rows nor carriage returns before its line feeds change what comes of it,
be it a glyph or an error. -/
theorem parse_by_rows (text : String) :
    parse text = ofRows (Text.rows text.toList) ∧
      (∀ before after : String, (∀ c ∈ before.toList, Text.isBlank c = true) →
        (∀ c ∈ after.toList, Text.isBlank c = true) →
        parse (before ++ text ++ after) = parse text) ∧
      (∀ lines, List.Forall₂ Text.Padded (text.toList.splitOn '\n') lines →
        parse (String.ofList (['\n'].intercalate lines)) = parse text) ∧
      parse (String.ofList (Text.withReturns text.toList)) = parse text := by
  refine ⟨parse_eq_ofRows text, ?_, ?_, ?_⟩
  · intro before after hb ha
    apply parse_congr
    rw [String.toList_append, String.toList_append]
    exact Text.rows_append hb ha text.toList
  · intro lines padded
    apply parse_congr
    rw [String.toList_ofList]
    exact Text.rows_intercalate padded
  · apply parse_congr
    rw [String.toList_ofList]
    exact Text.rows_withReturns text.toList

/-- One dot in the corner, and a row of dots below it that are not the mark. -/
def corner : String :=
  "X....\nxxxxx\n.....\n.....\n.....\n.....\n.....\n....."

theorem parse_by_rows_corner :
    parse corner = .ok (drawn [['X']]) ∧
      parse ("\u3000\r\n\t" ++ corner ++ "\n \u2028") = .ok (drawn [['X']]) ∧
      parse (String.ofList (['\n'].intercalate ((corner.toList.splitOn '\n').map fun piece =>
        ['\t'] ++ piece ++ ['\u0085', '\r']))) = .ok (drawn [['X']]) := by
  have plain : parse corner = .ok (drawn [['X']]) := by decide +kernel
  obtain ⟨-, around, within, -⟩ := parse_by_rows corner
  refine ⟨plain, ?_, ?_⟩
  · rw [around "\u3000\r\n\t" "\n \u2028", plain]
    · simp [Text.isBlank, Text.blankRanges]
    · simp [Text.isBlank, Text.blankRanges]
  · rw [within _ ?_, plain]
    rw [List.forall₂_map_right_iff, List.forall₂_same]
    intro piece _
    refine ⟨['\t'], ['\u0085', '\r'], ?_, ?_, rfl⟩
    · simp [Text.Padding, Text.isBlank, Text.blankRanges]
    · simp [Text.Padding, Text.isBlank, Text.blankRanges]

end GlyphTables.Glyph
