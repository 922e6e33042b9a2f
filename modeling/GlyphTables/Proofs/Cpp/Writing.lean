import Mathlib
import GlyphTables.Cpp.Buffer
import GlyphTables.Proofs.Cpp.Code

/-!
# Writing the generated files

A text reaches its file in the pieces that are handed over. What the file does with them decides how
the writing ends, so nothing is lost unnoticed on the way through the buffer.

* `text?_eq_some_iff`, `text?_eq_none_iff` : a draft has a text if each of its lines can be written;
* `pour_map_some`, `flatten_pieces` : it is handed over in pieces that make up the text;
* `pour_of_takes`, `written_of_complete`, `ending_pour_of_isEmpty` : so how the writing ends is the
  truth;
* `exists_text_source` : the source can be written where no literal is too wide.
-/

namespace GlyphTables

/-- No number is written with more digits than a literal can have. -/
def Library.Narrow (library : Library) : Prop :=
  ∀ table ∈ library.tables, ∀ entry ∈ table.entries, entry.array.style.tooWide = false

instance (library : Library) : Decidable library.Narrow :=
  inferInstanceAs (Decidable (∀ table ∈ library.tables, ∀ entry ∈ table.entries, _))

namespace Cpp

/-! ## Texts -/

/-- The lines with their ends. -/
def joined (lines : List String) : String :=
  String.join (lines.map (· ++ "\n"))

theorem joined_cons (line : String) (rest : List String) :
    joined (line :: rest) = (line ++ "\n") ++ joined rest := by
  apply String.toList_inj.1
  simp [joined, String.join_eq]

theorem encode_joined (lines : List String) :
    Utf8.encode (joined lines) = lines.flatMap lineBytes := by
  induction lines with
  | nil => rfl
  | cons line rest ih => rw [joined_cons, Utf8.encode_append, ih, List.flatMap_cons, lineBytes]

theorem lineBytes_ne_nil (line : String) : lineBytes line ≠ [] := by
  rw [lineBytes, Utf8.encode_append]
  exact List.append_ne_nil_of_right_ne_nil _ (by decide)

theorem mapM_id_eq_some_iff {draft : Draft} {lines : List String} :
    draft.mapM id = some lines ↔ draft = lines.map some := by
  induction draft generalizing lines with
  | nil => cases lines <;> simp
  | cons line rest ih =>
    rw [List.mapM_cons]
    cases line with
    | none => cases lines <;> simp
    | some line => cases lines <;> simp [Option.bind_eq_some_iff, ih, and_comm]

theorem text?_eq_some_iff {draft : Draft} {text : String} :
    text? draft = some text ↔ ∃ lines, draft = lines.map some ∧ joined lines = text := by
  simp only [text?, Option.map_eq_some_iff, mapM_id_eq_some_iff, joined]

theorem mapM_eq_none_iff {α β : Type} {f : α → Option β} {xs : List α} :
    xs.mapM f = none ↔ ∃ x ∈ xs, f x = none := by
  induction xs with
  | nil => simp
  | cons x rest ih =>
    cases h : f x with
    | none => simp [h]
    | some y =>
      have later : (x :: rest).mapM f = none ↔ rest.mapM f = none := by
        rw [List.mapM_cons, h]
        cases rest.mapM f <;> simp
      rw [later, ih, List.exists_mem_cons_iff, h]
      simp

/-- A draft has no text exactly if one of its lines has none. -/
theorem text?_eq_none_iff {draft : Draft} : text? draft = none ↔ none ∈ draft := by
  simp [text?, mapM_eq_none_iff]

/-! ## Pieces -/

/-- The pieces in which lines are handed over, when `pending` is already collected. The last piece
may be empty, but is handed over all the same. -/
def pieces (pending : List UInt8) (lines : List String) : List (List UInt8) :=
  (handover pending (lines.map some)).pieces

theorem pieces_cons (pending : List UInt8) (line : String) (rest : List String) :
    pieces pending (line :: rest) =
      if bufferSize ≤ (lineBytes line).length then pending :: lineBytes line :: pieces [] rest
      else if bufferSize < pending.length + (lineBytes line).length then
        pending :: pieces (lineBytes line) rest
      else pieces (pending ++ lineBytes line) rest := by
  simp only [pieces, List.map_cons, handover]
  split
  · rfl
  · split <;> rfl

def handAll (takes : List UInt8 → Bool) (given : List (List UInt8)) : Delivery :=
  given.foldr (handOver takes) ⟨[], .complete⟩

variable {takes : List UInt8 → Bool}

/-- Where every line can be written, nothing is left behind. -/
theorem left?_handover_map_some (pending : List UInt8) (lines : List String) :
    (handover pending (lines.map some)).left? = none := by
  induction lines generalizing pending with
  | nil => rfl
  | cons line rest ih =>
    simp only [List.map_cons, handover]
    split
    · exact ih []
    · split
      · exact ih _
      · exact ih _

/-- Lines are handed over in the pieces that the buffer makes of them. -/
theorem pour_map_some (takes : List UInt8 → Bool) (pending : List UInt8) (lines : List String) :
    pour takes pending (lines.map some) = handAll takes (pieces pending lines) := by
  rw [pour, Handover.last, left?_handover_map_some]
  rfl

/-- No byte is lost or moved in the buffer. -/
theorem flatten_pieces (pending : List UInt8) (lines : List String) :
    (pieces pending lines).flatten = pending ++ lines.flatMap lineBytes := by
  induction lines generalizing pending with
  | nil => simp [pieces, handover]
  | cons line rest ih =>
    rw [pieces_cons]
    split
    · simp [ih]
    · split <;> simp [ih]

theorem handAll_of_takes {given : List (List UInt8)} (h : ∀ piece ∈ given, takes piece = true) :
    handAll takes given = ⟨given.flatten, .complete⟩ := by
  induction given with
  | nil => rfl
  | cons piece rest ih =>
    have taken := h piece List.mem_cons_self
    have others := ih fun piece mem => h piece (List.mem_cons_of_mem _ mem)
    rw [handAll, List.foldr_cons, handOver_of_takes taken, ← handAll, others, List.flatten_cons]

theorem ending_handAll_of_not_takes {given : List (List UInt8)} {piece : List UInt8}
    (mem : piece ∈ given) (h : takes piece = false) : (handAll takes given).ending = .full := by
  induction given with
  | nil => cases mem
  | cons first rest ih =>
    rw [handAll, List.foldr_cons]
    cases taken : takes first with
    | false => rw [handOver_of_not_takes taken]
    | true =>
      rw [handOver_of_takes taken]
      obtain rfl | mem := List.mem_cons.1 mem
      · simp [h] at taken
      · exact ih mem

theorem ending_handAll_iff {given : List (List UInt8)} :
    (handAll takes given).ending = .complete ↔ ∀ piece ∈ given, takes piece = true := by
  constructor
  · intro complete piece mem
    by_contra refused
    simp [ending_handAll_of_not_takes mem (eq_false_of_ne_true refused)] at complete
  · intro h
    rw [handAll_of_takes h]

/-! ## Writing a text -/

variable {draft : Draft} {text : String}

/-- A file that takes everything gets the whole text. -/
theorem pour_of_takes (h : ∀ bytes, takes bytes = true) (said : text? draft = some text) :
    pour takes [] draft = ⟨Utf8.encode text, .complete⟩ := by
  obtain ⟨lines, rfl, rfl⟩ := text?_eq_some_iff.1 said
  rw [pour_map_some, handAll_of_takes fun piece _ => h piece, flatten_pieces, encode_joined,
    List.nil_append]

/-- Whatever a file takes: if the writing ends well, it has taken the whole text. -/
theorem written_of_complete (said : text? draft = some text)
    (complete : (pour takes [] draft).ending = .complete) :
    (pour takes [] draft).written = Utf8.encode text := by
  obtain ⟨lines, rfl, rfl⟩ := text?_eq_some_iff.1 said
  rw [pour_map_some] at complete ⊢
  rw [handAll_of_takes (ending_handAll_iff.1 complete), flatten_pieces, encode_joined,
    List.nil_append]

/-- A file that takes no byte is noticed, at the latest when the last piece is handed over. -/
theorem ending_pour_of_isEmpty (said : text? draft = some text) (nonempty : draft ≠ []) :
    (pour List.isEmpty [] draft).ending = .full := by
  obtain ⟨lines, rfl, rfl⟩ := text?_eq_some_iff.1 said
  rw [pour_map_some]
  by_contra other
  have quiet : ∀ piece ∈ pieces [] lines, piece = [] := by
    intro piece mem
    by_contra full
    exact other (ending_handAll_of_not_takes mem (by simpa using full))
  have flat := flatten_pieces [] lines
  rw [List.flatten_eq_nil_iff.2 quiet, List.nil_append] at flat
  cases lines with
  | nil => exact nonempty rfl
  | cons line rest =>
    rw [List.flatMap_cons] at flat
    exact lineBytes_ne_nil line (List.append_eq_nil_iff.1 flat.symm).1

/-! ## The drafts of a library -/

/-- Only a number of too many digits keeps a definition from being written. -/
theorem line?_eq_none_iff (d : Definition) :
    d.line? = none ↔ d.values ≠ [] ∧ d.style.tooWide = true := by
  simp [Definition.line?, Definition.initializer?, mapM_eq_none_iff, Literal.render?_eq_none_iff,
    List.eq_nil_iff_forall_not_mem]

theorem line?_ne_none {d : Definition} (narrow : d.style.tooWide = false) : d.line? ≠ none := by
  intro unwritable
  obtain ⟨-, wide⟩ := (line?_eq_none_iff d).1 unwritable
  exact absurd wide (ne_true_of_eq_false narrow)

theorem header_ne_nil (library : Library) (baseName : String) : header library baseName ≠ [] := by
  simp [header, headerLines]

theorem source_ne_nil (library : Library) (baseName : String) : source library baseName ≠ [] := by
  simp [source]

theorem exists_text_header (library : Library) (baseName : String) :
    ∃ text, text? (header library baseName) = some text :=
  ⟨_, text?_eq_some_iff.2 ⟨_, rfl, rfl⟩⟩

theorem exists_text_source {library : Library} (narrow : library.Narrow) (baseName : String) :
    ∃ text, text? (source library baseName) = some text := by
  rw [← Option.ne_none_iff_exists', ne_eq, text?_eq_none_iff, ← map_text?_sourceCode]
  intro mem
  obtain ⟨line, lineMem, unwritable⟩ := List.mem_map.1 mem
  cases line with
  | definition d =>
    obtain ⟨table, tableMem, entry, entryMem, rfl⟩ := exists_entry_of_definition_mem lineMem
    rw [text?_definition] at unwritable
    exact line?_ne_none (narrow table tableMem entry entryMem) unwritable
  | _ => cases unwritable

end Cpp

end GlyphTables
