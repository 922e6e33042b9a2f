import GlyphTables.Proofs.Lists
import GlyphTables.Text.Blank
import GlyphTables.Text.Lines

/-!
# Rows of a block of text

A block of text can be laid out in many ways: with blanks around it, with blanks around each of its
rows, with line ends of either kind. Its rows are what stands between its line feeds, without the
blanks around it and from the first that is not empty to the last.

* `rows_append`, `rows_congr` : blanks around the block and around its rows do not show in the rows;
* `rows_intercalate_of_solid` : rows that are joined again are the rows that they were;
* `map_trim_lines_trim` : the trimmed lines of the trimmed text are the rows.
-/

namespace GlyphTables.Text

theorem trim_eq_strip (text : List Char) : trim text = strip isBlank text := rfl

/-! ## Pieces between line feeds -/

/-- Blanks that stay on their line. -/
def Padding (text : List Char) : Prop :=
  ∀ c ∈ text, isBlank c = true ∧ c ≠ '\n'

/-- `b` is `a` with blanks behind it. -/
def Trailed (a b : List Char) : Prop :=
  ∃ right, Padding right ∧ b = a ++ right

/-- `b` is `a` with blanks around it. -/
def Padded (a b : List Char) : Prop :=
  ∃ left right, Padding left ∧ Padding right ∧ b = left ++ a ++ right

theorem padding_nil : Padding [] := by
  intro c hc
  cases hc

theorem padding_singleton {c : Char} (blank : isBlank c = true) (hc : c ≠ '\n') : Padding [c] := by
  intro d hd
  obtain rfl := List.mem_singleton.1 hd
  exact ⟨blank, hc⟩

theorem Trailed.refl (a : List Char) : Trailed a a :=
  ⟨[], padding_nil, (List.append_nil a).symm⟩

theorem Trailed.cons {a b : List Char} (h : Trailed a b) (c : Char) :
    Trailed (c :: a) (c :: b) := by
  obtain ⟨right, blanks, rfl⟩ := h
  exact ⟨right, blanks, rfl⟩

theorem Trailed.padded {a b : List Char} (h : Trailed a b) : Padded a b := by
  obtain ⟨right, blanks, rfl⟩ := h
  exact ⟨[], right, padding_nil, blanks, rfl⟩

theorem trailed_return : Trailed [] ['\r'] :=
  ⟨['\r'], padding_singleton (by decide) (by decide), rfl⟩

theorem forall₂_padded_self (lines : List (List Char)) : List.Forall₂ Padded lines lines :=
  List.forall₂_same.2 fun line _ => (Trailed.refl line).padded

/-- Padding is taken away by trimming. -/
theorem Padded.trim_eq {a b : List Char} (h : Padded a b) : trim b = trim a := by
  obtain ⟨left, right, hl, hr, rfl⟩ := h
  simp only [trim_eq_strip]
  rw [strip_append_right _ fun c hc => (hr c hc).1, strip_append_left fun c hc => (hl c hc).1]

theorem splitOn_newline_cons (text : List Char) :
    ('\n' :: text).splitOn '\n' = [] :: text.splitOn '\n' := by
  simp [List.splitOn_eq_splitOnP, List.splitOnP_cons_eq_if_modifyHead]

theorem splitOn_cons {c : Char} (hc : c ≠ '\n') (text : List Char) :
    (c :: text).splitOn '\n' = (text.splitOn '\n').modifyHead (c :: ·) := by
  simp [List.splitOn_eq_splitOnP, List.splitOnP_cons_eq_if_modifyHead, hc]

theorem splitOn_concat_newline (text : List Char) :
    (text ++ ['\n']).splitOn '\n' = text.splitOn '\n' ++ [[]] := by
  simp [List.splitOn_eq_splitOnP, List.splitOnP_append_cons]

/-- A character at the end joins the last piece. -/
theorem exists_splitOn_concat {c : Char} (hc : c ≠ '\n') (text : List Char) :
    ∃ front last, text.splitOn '\n' = front ++ [last] ∧
      (text ++ [c]).splitOn '\n' = front ++ [last ++ [c]] := by
  induction text with
  | nil => exact ⟨[], [], rfl, splitOn_cons hc []⟩
  | cons d text ih =>
    obtain ⟨front, last, before, after⟩ := ih
    by_cases hd : d = '\n'
    · subst hd
      refine ⟨[] :: front, last, ?_, ?_⟩
      · rw [splitOn_newline_cons, before, List.cons_append]
      · rw [List.cons_append, splitOn_newline_cons, after, List.cons_append]
    · rw [List.cons_append, splitOn_cons hd, splitOn_cons hd, before, after]
      cases front with
      | nil => exact ⟨[], d :: last, rfl, rfl⟩
      | cons first front => exact ⟨(d :: first) :: front, last, rfl, rfl⟩

theorem newline_notMem_of_mem_splitOn {text piece : List Char}
    (mem : piece ∈ text.splitOn '\n') : '\n' ∉ piece := by
  induction text generalizing piece with
  | nil =>
    obtain rfl := List.mem_singleton.1 mem
    exact List.not_mem_nil
  | cons c text ih =>
    by_cases hc : c = '\n'
    · subst hc
      rw [splitOn_newline_cons] at mem
      obtain rfl | mem := List.mem_cons.1 mem
      · exact List.not_mem_nil
      · exact ih mem
    · rw [splitOn_cons hc] at mem
      obtain ⟨first, others, split⟩ :=
        List.exists_cons_of_ne_nil (List.splitOn_ne_nil '\n' text)
      rw [split, List.modifyHead_cons] at mem
      obtain rfl | mem := List.mem_cons.1 mem
      · rw [List.mem_cons, not_or]
        exact ⟨Ne.symm hc, ih (split ▸ List.mem_cons_self)⟩
      · exact ih (split ▸ List.mem_cons_of_mem _ mem)

/-! ## Rows -/

/-- What stands between the line feeds, without the blanks around it. -/
def pieces (text : List Char) : List (List Char) :=
  (text.splitOn '\n').map trim

/-- The pieces of a block from the first that is not empty to the last. -/
def rows (text : List Char) : List (List Char) :=
  strip List.isEmpty (pieces text)

theorem map_trim_congr {as bs : List (List Char)} (h : List.Forall₂ Padded as bs) :
    bs.map trim = as.map trim :=
  (map_eq_of_forall₂ (fun _ _ padded => padded.trim_eq.symm) h).symm

/-- Rows do not tell what blanks are around them. -/
theorem rows_congr {a b : List Char}
    (h : List.Forall₂ Padded (a.splitOn '\n') (b.splitOn '\n')) : rows b = rows a := by
  rw [rows, pieces, map_trim_congr h, ← pieces, ← rows]

theorem isEmpty_of_mem_map_trim_nil : ∀ piece ∈ [[]].map trim, piece.isEmpty = true := by
  intro piece mem
  rw [List.mem_singleton.1 mem]
  rfl

theorem rows_cons {c : Char} (blank : isBlank c = true) (text : List Char) :
    rows (c :: text) = rows text := by
  by_cases hc : c = '\n'
  · subst hc
    rw [rows, pieces, splitOn_newline_cons, List.map_cons]
    exact strip_append_left isEmpty_of_mem_map_trim_nil _
  · obtain ⟨first, others, split⟩ := List.exists_cons_of_ne_nil (List.splitOn_ne_nil '\n' text)
    refine rows_congr ?_
    rw [splitOn_cons hc, split, List.modifyHead_cons]
    refine .cons ⟨[c], [], padding_singleton blank hc, padding_nil, ?_⟩ (forall₂_padded_self others)
    rw [List.append_nil, List.singleton_append]

theorem rows_concat {c : Char} (blank : isBlank c = true) (text : List Char) :
    rows (text ++ [c]) = rows text := by
  by_cases hc : c = '\n'
  · subst hc
    rw [rows, pieces, splitOn_concat_newline, List.map_append]
    exact strip_append_right _ isEmpty_of_mem_map_trim_nil
  · obtain ⟨front, last, before, after⟩ := exists_splitOn_concat hc text
    refine rows_congr ?_
    rw [before, after]
    have padded : Padded last (last ++ [c]) :=
      Trailed.padded ⟨[c], padding_singleton blank hc, rfl⟩
    exact List.rel_append (forall₂_padded_self front) (.cons padded .nil)

/-- Rows do not tell what blanks are around the block. -/
theorem rows_append {before after : List Char} (hb : ∀ c ∈ before, isBlank c = true)
    (ha : ∀ c ∈ after, isBlank c = true) (text : List Char) :
    rows (before ++ text ++ after) = rows text := by
  have front : rows (before ++ text) = rows text := by
    induction before with
    | nil => rfl
    | cons c before ih =>
      obtain ⟨hc, hb⟩ := List.forall_mem_cons.1 hb
      rw [List.cons_append, rows_cons hc, ih hb]
  rw [← front]
  generalize before ++ text = text
  induction after using List.reverseRecOn with
  | nil => rw [List.append_nil]
  | append_singleton after c ih =>
    rw [List.forall_mem_append, List.forall_mem_singleton] at ha
    rw [← List.append_assoc, rows_concat ha.2, ih ha.1]

/-- The rows of a text do not depend on the blanks around it. -/
theorem rows_trim (text : List Char) : rows (trim text) = rows text := by
  obtain ⟨before, after, hb, ha, split⟩ := exists_append_strip isBlank text
  have same := rows_append hb ha (strip isBlank text)
  rw [← split] at same
  exact same.symm

/-! ## Line ends -/

/-- The text with a carriage return before each line feed. -/
def withReturns (text : List Char) : List Char :=
  text.flatMap fun c => if c = '\n' then ['\r', '\n'] else [c]

theorem trailed_withReturns (text : List Char) :
    List.Forall₂ Trailed (text.splitOn '\n') ((withReturns text).splitOn '\n') := by
  induction text with
  | nil => exact .cons (.refl []) .nil
  | cons c text ih =>
    unfold withReturns at ih ⊢
    rw [List.flatMap_cons]
    by_cases hc : c = '\n'
    · subst hc
      rw [if_pos rfl, List.cons_append, List.singleton_append, splitOn_newline_cons,
        splitOn_cons (by decide), splitOn_newline_cons]
      exact .cons trailed_return ih
    · rw [if_neg hc, List.singleton_append, splitOn_cons hc, splitOn_cons hc]
      exact forall₂_modifyHead (fun _ _ same => same.cons c) ih

/-- The rows of a text do not depend on how its lines end. -/
theorem rows_withReturns (text : List Char) : rows (withReturns text) = rows text :=
  rows_congr ((trailed_withReturns text).imp fun _ _ => Trailed.padded)

theorem newline_notMem_of_padded {piece line : List Char} (h : Padded piece line)
    (free : '\n' ∉ piece) : '\n' ∉ line := by
  obtain ⟨left, right, hl, hr, rfl⟩ := h
  simp only [List.mem_append, not_or]
  exact ⟨⟨fun mem => (hl _ mem).2 rfl, free⟩, fun mem => (hr _ mem).2 rfl⟩

/-- The rows are those of the pieces, whatever blanks are put around each. -/
theorem rows_intercalate {text : List Char} {lines : List (List Char)}
    (h : List.Forall₂ Padded (text.splitOn '\n') lines) :
    rows (['\n'].intercalate lines) = rows text := by
  have free : ∀ line ∈ lines, '\n' ∉ line :=
    forall_mem_of_forall₂ (P := fun piece => '\n' ∉ piece)
      (fun _ _ => newline_notMem_of_padded) h fun _ => newline_notMem_of_mem_splitOn
  have filled : lines ≠ [] := by
    rintro rfl
    exact List.splitOn_ne_nil '\n' text (List.forall₂_nil_right_iff.1 h)
  refine rows_congr ?_
  rwa [List.splitOn_intercalate '\n' free filled]

/-- Lines without a blank in them are the rows of the text that they make up. -/
theorem rows_intercalate_of_solid {lines : List (List Char)} (filled : lines ≠ [])
    (solid : ∀ line ∈ lines, line ≠ [] ∧ ∀ c ∈ line, isBlank c = false) :
    rows (['\n'].intercalate lines) = lines := by
  have newline : isBlank '\n' = true := by decide
  have free : ∀ line ∈ lines, '\n' ∉ line := by
    intro line mem inLine
    exact absurd newline (by simp [(solid line mem).2 _ inLine])
  have trimmed : lines.map trim = lines.map id :=
    List.map_congr_left fun line mem => strip_eq_self (solid line mem).2
  rw [rows, pieces, List.splitOn_intercalate '\n' free filled, trimmed, List.map_id]
  exact strip_eq_self fun line mem => by simp [(solid line mem).1]

/-! ## Lines -/

/-- Lines are the pieces but for the carriage returns behind them, and there is one piece more if
the text ends with a line feed. -/
theorem exists_trailed_lines (text : List Char) :
    ∃ rest, (rest = [] ∨ rest = [[]]) ∧
      List.Forall₂ Trailed (lines text ++ rest) (text.splitOn '\n') := by
  fun_induction lines text with
  | case1 => exact ⟨[[]], .inr rfl, .cons (.refl []) .nil⟩
  | case2 text ih =>
    obtain ⟨rest, shape, same⟩ := ih
    refine ⟨rest, shape, ?_⟩
    rw [splitOn_newline_cons]
    exact .cons (.refl []) same
  | case3 text ih =>
    obtain ⟨rest, shape, same⟩ := ih
    refine ⟨rest, shape, ?_⟩
    rw [splitOn_cons (by decide), splitOn_newline_cons]
    exact .cons trailed_return same
  | case4 c text notFeed _ empty _ =>
    obtain rfl := (lines_eq_nil_iff text).1 empty
    refine ⟨[], .inl rfl, ?_⟩
    rw [splitOn_cons notFeed]
    exact .cons (.refl [c]) .nil
  | case5 c text notFeed _ line others found ih =>
    obtain ⟨rest, shape, same⟩ := ih
    refine ⟨rest, shape, ?_⟩
    rw [found, List.cons_append] at same
    rw [splitOn_cons notFeed]
    generalize text.splitOn '\n' = split at same ⊢
    cases same with
    | cons first others => exact .cons (first.cons c) others

theorem exists_pieces_eq (text : List Char) :
    ∃ rest, (rest = [] ∨ rest = [[]]) ∧ pieces text = (lines text).map trim ++ rest := by
  obtain ⟨rest, shape, same⟩ := exists_trailed_lines text
  refine ⟨rest, shape, ?_⟩
  rw [pieces, map_trim_congr (same.imp fun _ _ => Trailed.padded), List.map_append]
  obtain rfl | rfl := shape <;> rfl

theorem trim_ne_nil {c : Char} (solid : isBlank c = false) {text : List Char} (mem : c ∈ text) :
    trim text ≠ [] := by
  rw [trim_eq_strip, Ne, strip_eq_nil_iff]
  intro blank
  exact absurd (blank c mem) (by simp [solid])

/-- The first and the last piece of a text with solid ends are not empty. -/
theorem exists_ends_of_pieces {text : List Char} {c d : Char} {front back : List Char}
    (hc : isBlank c = false) (hd : isBlank d = false) (first : text = c :: back)
    (last : text = front ++ [d]) :
    (∃ row others, pieces text = row :: others ∧ row ≠ []) ∧
      ∃ others row, pieces text = others ++ [row] ∧ row ≠ [] := by
  have solid : ∀ {e : Char}, isBlank e = false → e ≠ '\n' := by
    rintro e he rfl
    exact absurd he (by decide)
  constructor
  · obtain ⟨piece, others, split⟩ := List.exists_cons_of_ne_nil (List.splitOn_ne_nil '\n' back)
    refine ⟨trim (c :: piece), others.map trim, ?_, trim_ne_nil hc List.mem_cons_self⟩
    rw [pieces, first, splitOn_cons (solid hc), split, List.modifyHead_cons, List.map_cons]
  · obtain ⟨others, piece, -, split⟩ := exists_splitOn_concat (solid hd) front
    refine ⟨others.map trim, trim (piece ++ [d]), ?_, trim_ne_nil hd (by simp)⟩
    rw [pieces, last, split, List.map_append, List.map_singleton]

/-- **The trimmed lines of the trimmed text are the rows of the text.** -/
theorem map_trim_lines_trim (text : List Char) : (lines (trim text)).map trim = rows text := by
  rw [← rows_trim text]
  by_cases empty : trim text = []
  · rw [empty]
    rfl
  · obtain ⟨⟨c, back, first, hc⟩, front, d, last, hd⟩ := exists_ends_of_strip empty
    rw [← trim_eq_strip] at first last
    obtain ⟨⟨top, others, hTop, topFilled⟩, others', bottom, hBottom, bottomFilled⟩ :=
      exists_ends_of_pieces hc hd first last
    obtain ⟨rest, rfl | rfl, same⟩ := exists_pieces_eq (trim text)
    · rw [rows, strip_cons_concat hTop ⟨_, hBottom⟩ (by simpa using topFilled)
        (by simpa using bottomFilled), same, List.append_nil]
    · rw [hBottom] at same
      exact absurd (List.append_inj_right' same rfl) (by simpa using bottomFilled)

end GlyphTables.Text
