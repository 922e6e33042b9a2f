import GlyphTables.Proofs.Cpp.Cut

/-!
# Numbers that cannot be written

A number has no literal if too many digits are asked for, and then the source cannot be written from
the line of its entry on. Whether the writing gets there hangs on the writer, which may fail above
that line.

* `find?_sourceCode`, `firstWide?_eq` : the first line that cannot be written is that of the first
  entry that is too wide;
* `outcome_put`, `outcome_put_refused` : how the writing ends, by the room of the writer;
* `refused_iff_wide` : so the source is refused if the writer gets to that line, and the header never.
-/

namespace GlyphTables

namespace Library

/-- The entries with their tables, in the order of the source. -/
def places (library : Library) : List (Table × Table.Entry) :=
  library.tables.flatMap fun table => table.entries.map fun entry => (table, entry)

/-- The first entry that asks for too many digits. -/
def firstWide? (library : Library) : Option (Table × Table.Entry) :=
  library.places.find? fun place => place.2.array.style.tooWide

theorem firstWide?_eq_none_iff (library : Library) :
    library.firstWide? = none ↔ library.Narrow := by
  simp only [firstWide?, places, List.find?_eq_none, List.mem_flatMap, List.mem_map,
    Bool.not_eq_true, Narrow]
  constructor
  · intro h table tableMem entry entryMem
    exact h (table, entry) ⟨table, tableMem, entry, entryMem, rfl⟩
  · rintro h _ ⟨table, tableMem, entry, entryMem, rfl⟩
    exact h table tableMem entry entryMem

end Library

namespace Cpp

/-! ## The first line that cannot be written -/

def Line.unwritable (line : Line) : Bool :=
  line.text?.isNone

theorem find?_intercalate {α : Type} {p : α → Bool} {gap : List α} (none : gap.find? p = none)
    (blocks : List (List α)) :
    (gap.intercalate blocks).find? p = blocks.findSome? (List.find? p) := by
  cases blocks with
  | nil => rfl
  | cons first rest =>
    rw [intercalate_cons_eq_flatMap, List.find?_append, List.find?_flatMap, List.findSome?_cons]
    simp only [List.find?_append, none, Option.none_or]
    cases first.find? p <;> rfl

/-- Lines of mere text can be written. -/
theorem find?_unwritable_eq_none {code : List Line} {lines : List String}
    (said : code.map Line.text? = lines.map some) : code.find? Line.unwritable = none := by
  rw [List.find?_eq_none]
  intro line mem unwritable
  have text : line.text? ∈ lines.map some := said ▸ List.mem_map_of_mem mem
  obtain ⟨_, -, written⟩ := List.mem_map.1 text
  simp [Line.unwritable, ← written] at unwritable

/-- The first line that cannot be written stands in a block. -/
theorem find?_page (top : List String) (blocks : List (List Line)) (bottom : List String) :
    (page top blocks bottom).find? Line.unwritable =
      blocks.findSome? (List.find? Line.unwritable) := by
  have plain : ∀ lines : List String, (lines.map Line.plain).find? Line.unwritable = none :=
    fun lines => find?_unwritable_eq_none (map_text?_plain lines)
  have gap : [Line.plain ""].find? Line.unwritable = none := plain [""]
  rw [page, List.find?_append, List.find?_append, plain, plain, find?_intercalate gap,
    Option.none_or, Option.or_none]

theorem find?_sourceBlock (block : SourceBlock) :
    block.code.find? Line.unwritable =
      (block.data.find? fun d => d.line?.isNone).map .definition := by
  have same : Line.unwritable ∘ Line.definition = fun d => d.line?.isNone := by
    funext d
    rw [Function.comp_apply, Line.unwritable, text?_definition]
  rw [SourceBlock.code, List.append_assoc, List.append_assoc, List.find?_append,
    ← List.append_assoc, find?_unwritable_eq_none (map_text?_array block), Option.or_none,
    List.find?_map, same]

/-- Only numbers keep a line from being written. -/
theorem find?_sourceCode (library : Library) (baseName : String) :
    (sourceCode library baseName).find? Line.unwritable =
      (library.places.find? fun place => (entryDefinition place.1 place.2).line?.isNone).map
        fun place => .definition (entryDefinition place.1 place.2) := by
  rw [sourceCode, find?_page, List.findSome?_map, Library.places, List.find?_flatMap,
    List.map_findSome?]
  congr 1
  funext table
  rw [Function.comp_apply, find?_sourceBlock, Function.comp_apply, sourceBlock, List.find?_map,
    List.find?_map, Option.map_map, Option.map_map]
  rfl

/-- In an accepted library each entry has a number, so that a wide style keeps its line from being
written. -/
theorem firstWide?_eq {library : Library} (h : library.Accepted) :
    (library.places.find? fun place => (entryDefinition place.1 place.2).line?.isNone) =
      library.firstWide? := by
  refine List.find?_congr ?_
  intro place mem
  simp only [Library.places, List.mem_flatMap, List.mem_map] at mem
  obtain ⟨table, tableMem, entry, entryMem, rfl⟩ := mem
  have filled : entry.array.values ≠ [] := (h.wellNamed tableMem).filled entry entryMem
  rw [Bool.eq_iff_iff, Option.isNone_iff_eq_none, line?_eq_none_iff]
  exact and_iff_right filled

/-! ## The room of a writer -/

theorem outcome_put (text : String) (writer : Writer) :
    (put text writer).1 =
      if fits writer.room text.utf8ByteSize then .ok () else .error .full := by
  obtain ⟨written, room⟩ := writer
  have size := Utf8.length_encode text
  cases room with
  | none => rfl
  | some n =>
    obtain short | enough := Nat.lt_or_ge n text.utf8ByteSize
    · rw [put_of_not_fits (by omega)]
      simp [fits, short]
    · rw [put_of_fits (by omega)]
      simp [fits, enough]

/-- Text that does not fit is noticed before the line that cannot be written. -/
theorem outcome_put_refused (text : String) (writer : Writer) :
    ((do put text; throw .refused : Write Unit) writer).1 =
      if fits writer.room text.utf8ByteSize then .error .refused else .error .full := by
  have outcome := outcome_put text writer
  by_cases enough : fits writer.room text.utf8ByteSize = true
  · rw [if_pos enough] at outcome ⊢
    have run : put text writer = (.ok (), (put text writer).2) := Prod.ext outcome rfl
    rw [bind_of_ok run]
    rfl
  · -- the writer fails above the line
    rw [if_neg enough] at outcome ⊢
    have run : put text writer = (.error .full, (put text writer).2) := Prod.ext outcome rfl
    rw [bind_of_error run]

/-! ## The source above an entry -/

/-- `text` is what stands in the source above the line of `entry`. -/
def Above (library : Library) (baseName : String) (table : Table) (entry : Table.Entry)
    (text : String) : Prop :=
  ∃ before rest,
    sourceCode library baseName = before ++ .definition (entryDefinition table entry) :: rest ∧
      text? (before.map Line.text?) = some text

section Library

variable {library : Library} {baseName text : String} {table : Table} {entry : Table.Entry}

/-- Above the first entry that is too wide all lines have a text. -/
theorem exists_above (h : library.Accepted) (baseName : String)
    (first : library.firstWide? = some (table, entry)) :
    ∃ text, Above library baseName table entry text := by
  have found := find?_sourceCode library baseName
  rw [firstWide?_eq h, first, Option.map_some] at found
  obtain ⟨-, before, rest, split, writable⟩ := List.find?_eq_some_iff_append.1 found
  have said : text? (before.map Line.text?) ≠ none := by
    rw [ne_eq, text?_eq_none_iff, List.mem_map]
    rintro ⟨line, mem, unwritable⟩
    have written := writable line mem
    simp [Line.unwritable, unwritable] at written
  obtain ⟨text, said⟩ := Option.ne_none_iff_exists'.1 said
  exact ⟨text, before, rest, split, said⟩

theorem unwritable_of_firstWide? (h : library.Accepted)
    (first : library.firstWide? = some (table, entry)) :
    (entryDefinition table entry).line? = none := by
  rw [← firstWide?_eq h] at first
  have unwritable := List.find?_some first
  exact Option.isNone_iff_eq_none.1 unwritable

/-- The source is written up to the first entry that is too wide, and then refused. -/
theorem writeSource_of_above (h : library.Accepted)
    (first : library.firstWide? = some (table, entry))
    (above : Above library baseName table entry text) :
    writeSource library baseName = (do put text; throw .refused) := by
  have unwritable := unwritable_of_firstWide? h first
  obtain ⟨before, rest, split, said⟩ := above
  obtain ⟨lines, same, rfl⟩ := text?_eq_some_iff.1 said
  rw [writeSource_eq, ← map_text?_sourceCode, split, List.map_append, List.map_cons, same,
    text?_definition, unwritable, writeDraft_map_some_append_none]

/-- The source is written as a whole or up to the line of the first entry that is too wide. -/
theorem put_or_refused (h : library.Accepted) (baseName : String) :
    (∃ text, writeSource library baseName = put text) ∨
      ∃ table entry text, library.firstWide? = some (table, entry) ∧
        Above library baseName table entry text ∧
        writeSource library baseName = (do put text; throw .refused) := by
  cases first : library.firstWide? with
  | none =>
    obtain ⟨text, said⟩ := exists_text_source (library.firstWide?_eq_none_iff.1 first) baseName
    exact .inl ⟨text, (writeSource_eq library baseName).trans (writeDraft_eq_put said)⟩
  | some place =>
    obtain ⟨table, entry⟩ := place
    obtain ⟨text, above⟩ := exists_above h baseName first
    exact .inr ⟨table, entry, text, rfl, above, writeSource_of_above h first above⟩

end Library

/-- **Only an entry that is too wide ends the writing before the writer does**: never in the header,
and in the source if the writer has room for all that stands above the first such entry. -/
theorem refused_iff_wide {library : Library} (h : library.Accepted) (baseName : String)
    (writer : Writer) :
    ((writeHeader library baseName writer).1 = .ok () ∨
        (writeHeader library baseName writer).1 = .error .full) ∧
      (∀ table entry text, library.firstWide? = some (table, entry) →
        Above library baseName table entry text →
          writeSource library baseName = (do put text; throw .refused)) ∧
      ((writeSource library baseName writer).1 = .error .refused ↔
        ∃ table entry text, library.firstWide? = some (table, entry) ∧
          Above library baseName table entry text ∧
          fits writer.room text.utf8ByteSize = true) ∧
      ((writeSource library baseName writer).1 = .ok () ↔
        ∃ text, writeSource library baseName = put text ∧
          fits writer.room text.utf8ByteSize = true) := by
  refine ⟨?_, fun _ _ _ => writeSource_of_above h, ⟨?_, ?_⟩, ⟨?_, ?_⟩⟩
  · obtain ⟨text, said⟩ := exists_text_header library baseName
    rw [writeHeader_eq, writeDraft_eq_put said, outcome_put]
    split
    · exact .inl rfl
    · exact .inr rfl
  · intro refused
    obtain ⟨text, same⟩ | ⟨table, entry, text, first, above, same⟩ := put_or_refused h baseName
    · rw [same, outcome_put] at refused
      split at refused <;> cases refused
    · refine ⟨table, entry, text, first, above, ?_⟩
      rw [same, outcome_put_refused] at refused
      by_contra short
      rw [if_neg short] at refused
      cases refused
  · rintro ⟨table, entry, text, first, above, enough⟩
    rw [writeSource_of_above h first above, outcome_put_refused, if_pos enough]
  · intro ended
    obtain ⟨text, same⟩ | ⟨_, _, text, -, -, same⟩ := put_or_refused h baseName
    · refine ⟨text, same, ?_⟩
      rw [same, outcome_put] at ended
      by_contra short
      rw [if_neg short] at ended
      cases ended
    · rw [same, outcome_put_refused] at ended
      split at ended <;> cases ended
  · rintro ⟨text, same, enough⟩
    rw [same, outcome_put, if_pos enough]

/-- A table whose second entry asks for more digits than a literal can have. -/
def wideEntry : Library where
  target := "t"
  scope := ""
  includes := []
  preamble := ""
  tables :=
    [⟨⟨"f", "F", .array, "int", false, []⟩,
      [⟨"a", ⟨"v", "int", [1], .decimal⟩⟩, ⟨"b", ⟨"v", "int", [2], .hexadecimal 65536⟩⟩]⟩]

/-- The line of the first entry ends with the fifty-first byte. -/
theorem refused_iff_wide_wideEntry :
    wideEntry.Accepted ∧ (writeSource wideEntry "b" ⟨[], some 51⟩).1 = .error .refused ∧
      (writeSource wideEntry "b" ⟨[], some 50⟩).1 = .error .full := by
  have accepted : wideEntry.Accepted := by decide +kernel
  let text := joined ["#include \"b.h\"", "", "static const int f_a_v[1] = \x7b 1 \x7d;"]
  have above : Above wideEntry "b" _ _ text :=
    ⟨(sourceCode wideEntry "b").take 3, (sourceCode wideEntry "b").drop 4, rfl, by decide +kernel⟩
  obtain ⟨-, stops, refused, -⟩ := refused_iff_wide accepted "b" ⟨[], some 51⟩
  refine ⟨accepted, refused.2 ⟨_, _, text, rfl, above, by decide +kernel⟩, ?_⟩
  rw [stops _ _ text rfl above, outcome_put_refused]
  decide +kernel

end Cpp

end GlyphTables
