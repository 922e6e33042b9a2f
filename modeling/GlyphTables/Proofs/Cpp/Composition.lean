import GlyphTables.Proofs.Cpp.Cut
import GlyphTables.Proofs.Cpp.Linkage
import GlyphTables.Proofs.Lists

/-!
# How the files are put together

A file consists of a block for each table, with one line break between two blocks, and of what
stands above and below the blocks. No block heeds the other tables, so that tables can be taken out
of a library or change places without a trace in the blocks of the others.

* `text?_intercalate` : the text of drafts with empty lines between them;
* `utf8ByteSize_enclosed_of_perm` : each block that is taken out takes a separator along;
* `writeSource_eq_separated`, `writeSource_eq_put`, `writeHeader_eq_put` : what the files consist of;
* `blocks_stand_apart` : and what is left of them when tables are taken out or change places.
-/

namespace GlyphTables.Cpp

/-! ## Texts -/

theorem joined_append (front back : List String) :
    joined (front ++ back) = joined front ++ joined back := by
  simp [joined, String.join_append]

theorem text?_map_some (lines : List String) : text? (lines.map some) = some (joined lines) :=
  text?_eq_some_iff.2 ⟨lines, rfl, rfl⟩

theorem text?_append (front back : Draft) :
    text? (front ++ back) = (text? front).bind fun s => (text? back).map (s ++ ·) := by
  cases first : text? front with
  | none =>
    rw [text?_eq_none_iff] at first
    rw [Option.bind_none, text?_eq_none_iff]
    exact List.mem_append_left _ first
  | some s =>
    cases second : text? back with
    | none =>
      rw [text?_eq_none_iff] at second
      rw [Option.bind_some, Option.map_none, text?_eq_none_iff]
      exact List.mem_append_right _ second
    | some t =>
      obtain ⟨lines, rfl, rfl⟩ := text?_eq_some_iff.1 first
      obtain ⟨lines', rfl, rfl⟩ := text?_eq_some_iff.1 second
      rw [← List.map_append, text?_map_some, joined_append]
      rfl

/-- Empty lines between drafts are newlines between texts. -/
theorem text?_intercalate (drafts : List Draft) :
    text? ([some ""].intercalate drafts) = (drafts.mapM text?).map ("\n".intercalate ·) := by
  induction drafts with
  | nil => rfl
  | cons first rest ih =>
    cases rest with
    | nil => cases h : text? first <;> simp [h]
    | cons second rest =>
      have gap : text? [some ""] = some "\n" := rfl
      simp only [List.intercalate_cons_cons, text?_append, ih, gap, List.mapM_cons]
      cases text? first with
      | none => rfl
      | some s =>
        cases text? second with
        | none => rfl
        | some t => cases rest.mapM text? <;> simp

theorem joined_intercalate (blocks : List (List String)) :
    joined ([""].intercalate blocks) = "\n".intercalate (blocks.map joined) := by
  have texts : (blocks.map (List.map some)).mapM text? = some (blocks.map joined) := by
    rw [mapM_eq_some_iff_forall₂, List.forall₂_map_left_iff, List.forall₂_map_right_iff,
      List.forall₂_same]
    exact fun lines _ => text?_map_some lines
  have lines := text?_intercalate (blocks.map (List.map some))
  have same : [some ""].intercalate (blocks.map (List.map some)) =
      ([""].intercalate blocks).map some := (map_intercalate some [""] blocks).symm
  rw [texts, same, text?_map_some] at lines
  exact Option.some.inj lines

/-- Each block brings a separator along, but for the first. -/
theorem utf8ByteSize_intercalate {blocks : List String} (filled : blocks ≠ []) :
    ("\n".intercalate blocks).utf8ByteSize + 1 =
      (blocks.map fun block => block.utf8ByteSize + 1).sum := by
  induction blocks with
  | nil => exact absurd rfl filled
  | cons first rest ih =>
    cases rest with
    | nil => simp
    | cons second rest =>
      have others := ih (List.cons_ne_nil _ _)
      have gap : "\n".utf8ByteSize = 1 := rfl
      rw [String.intercalate_cons_cons, List.map_cons, List.sum_cons, String.utf8ByteSize_append,
        String.utf8ByteSize_append, gap]
      omega

/-! ## What stands around the blocks -/

def opening (scope : String) : String :=
  joined (openScope scope)

def closing (scope : String) : String :=
  joined (closeScope scope)

/-- The source above the blocks. -/
def sourceTop (baseName scope : String) : String :=
  joined ["#include \"" ++ baseName ++ ".h\"", ""] ++ opening scope

/-- The header above the namespace. -/
def headerTop (library : Library) (baseName : String) : String :=
  joined (preambleLines library.preamble ++ guardLines (includeGuard library.target baseName) ++
    includeLines library)

/-- The header below the namespace. -/
def headerBottom (target baseName : String) : String :=
  joined ["", "#endif // " ++ includeGuard target baseName]

/-- Blocks with line breaks between them, and what stands around them. -/
def enclosed (top : String) (blocks : List String) (bottom : String) : String :=
  top ++ "\n".intercalate blocks ++ bottom

/-- Each block adds its own bytes and a newline, but for the last one. -/
theorem utf8ByteSize_enclosed {blocks : List String} (filled : blocks ≠ []) (top bottom : String) :
    (enclosed top blocks bottom).utf8ByteSize + 1 =
      top.utf8ByteSize + (blocks.map fun block => block.utf8ByteSize + 1).sum +
        bottom.utf8ByteSize := by
  rw [← utf8ByteSize_intercalate filled, enclosed, String.utf8ByteSize_append,
    String.utf8ByteSize_append]
  omega

/-- Without a block the whole is shorter by the block and one separator, as long as any is left. -/
theorem utf8ByteSize_enclosed_of_perm {kept deleted blocks : List String}
    (perm : (kept ++ deleted).Perm blocks) (filled : kept ≠ []) (top bottom : String) :
    (enclosed top blocks bottom).utf8ByteSize = (enclosed top kept bottom).utf8ByteSize +
      (deleted.map fun block => block.utf8ByteSize + 1).sum := by
  have filled' : blocks ≠ [] := by
    rintro rfl
    exact filled (List.append_eq_nil_iff.1 (List.perm_nil.1 perm)).1
  have before := utf8ByteSize_enclosed filled' top bottom
  have after := utf8ByteSize_enclosed filled top bottom
  have sizes := (perm.map fun block => block.utf8ByteSize + 1).sum_eq
  rw [List.map_append, List.sum_append] at sizes
  omega

/-! ## The blocks -/

/-- The block of a table in the header. -/
def headerText (table : Table) : String :=
  joined (headerBlock table).lines

/-- The block of a table in the source; it is left empty if a number has no literal. -/
def sourceText (table : Table) : String :=
  (text? (sourceBlock table).lines).getD ""

theorem writeDeclaration_eq_put (table : Table) :
    writeDeclaration table = put (headerText table) := by
  rw [writeDeclaration_eq, writeDraft_map_some, headerText]

theorem writeDefinition_eq_put_iff (table : Table) :
    writeDefinition table = put (sourceText table) ↔
      ∃ text, text? (sourceBlock table).lines = some text := by
  rw [writeDefinition_eq, writeDraft_eq_put_iff, sourceText]
  cases text? (sourceBlock table).lines <;> simp

/-! ## The files -/

/-- The header is what stands above, the texts of the tables, and what stands below. -/
theorem writeHeader_eq_put (library : Library) (baseName : String) :
    writeHeader library baseName =
      put (headerTop library baseName ++
        enclosed (opening library.scope) (library.tables.map headerText) (closing library.scope) ++
        headerBottom library.target baseName) := by
  have blocks : joined (headerBlocks library) =
      "\n".intercalate (library.tables.map headerText) := by
    rw [headerBlocks, joined_intercalate, List.map_map]
    rfl
  rw [writeHeader_eq, header, writeDraft_map_some, headerLines]
  simp only [joined_append, blocks, headerTop, headerBottom, enclosed, opening, closing,
    String.append_assoc]

theorem writeSource_eq_separated (library : Library) (baseName : String) :
    writeSource library baseName = (do
      put (sourceTop baseName library.scope)
      separated (library.tables.map writeDefinition)
      put (closing library.scope)) := by
  have top : put (sourceTop baseName library.scope) = (do
      putLine ["#include \"", baseName, ".h\""]
      putLine []
      writeOpening library.scope) := by
    rw [sourceTop, opening, ← joined_append, ← writeDraft_map_some]
    simp only [putLine_eq_writeDraft, writeOpening_eq, writeDraft_append]
    simp [String.append_assoc]
  have bottom : put (closing library.scope) = writeClosing library.scope := by
    rw [closing, writeClosing_eq, writeDraft_map_some]
  rw [top, bottom, ← writeTables_eq_separated, writeSource]
  simp only [bind_assoc]

theorem text?_sourceBlocks {library : Library}
    (said : ∀ table ∈ library.tables, writeDefinition table = put (sourceText table)) :
    text? (sourceBlocks library) = some ("\n".intercalate (library.tables.map sourceText)) := by
  have texts : (library.tables.map fun table => (sourceBlock table).lines).mapM text? =
      some (library.tables.map sourceText) := by
    rw [mapM_eq_some_iff_forall₂, List.forall₂_map_left_iff, List.forall₂_map_right_iff,
      List.forall₂_same]
    intro table mem
    rw [← writeDraft_eq_put_iff, ← writeDefinition_eq]
    exact said table mem
  rw [sourceBlocks, text?_intercalate, texts, Option.map_some]

theorem writeSource_eq_put {library : Library}
    (said : ∀ table ∈ library.tables, writeDefinition table = put (sourceText table))
    (baseName : String) :
    writeSource library baseName =
      put (enclosed (sourceTop baseName library.scope) (library.tables.map sourceText)
        (closing library.scope)) := by
  rw [writeSource_eq, writeDraft_eq_put_iff, source]
  simp only [text?_append, text?_map_some, text?_sourceBlocks said, Option.bind_some,
    Option.map_some, enclosed, sourceTop, opening, closing]

theorem said_of_narrow {library : Library} (narrow : library.Narrow) :
    ∀ table ∈ library.tables, writeDefinition table = put (sourceText table) := by
  intro table mem
  rw [writeDefinition_eq_put_iff, ← Option.ne_none_iff_exists', ne_eq, text?_eq_none_iff]
  intro unwritable
  rw [SourceBlock.lines, List.mem_append] at unwritable
  obtain unwritable | other := unwritable
  · simp only [sourceBlock, List.map_map, List.mem_map, Function.comp_apply] at unwritable
    obtain ⟨entry, entryMem, unwritable⟩ := unwritable
    exact line?_ne_none (narrow table mem entry entryMem) unwritable
  · -- the lines of the array itself are mere text
    simp at other

/-- A source that can be written has no number that is too wide. -/
theorem narrow_of_said {library : Library} (h : library.Accepted) {baseName text : String}
    (said : writeSource library baseName = put text) : library.Narrow := by
  rw [writeSource_eq, writeDraft_eq_put_iff] at said
  intro table mem entry entryMem
  by_contra wide
  have filled : entry.array.values ≠ [] := (h.wellNamed mem).filled entry entryMem
  have unwritable : (entryDefinition table entry).line? = none :=
    (line?_eq_none_iff _).2 ⟨filled, eq_true_of_ne_false wide⟩
  have inSource : none ∈ source library baseName :=
    unwritable ▸ line?_mem_source mem baseName entryMem
  rw [text?_eq_none_iff.2 inSource] at said
  cases said

/-- What the two files of a library consist of. As programs the parts follow one another whatever the
numbers are; a whole text is written if each number has a literal. What stands around the blocks
hangs on the base name and the namespace, but for the ends of the header. -/
structure Composed (library : Library) (baseName : String) : Prop where
  source : writeSource library baseName = (do
    put (sourceTop baseName library.scope)
    separated (library.tables.map writeDefinition)
    put (closing library.scope))
  written : library.Narrow → writeSource library baseName =
    put (enclosed (sourceTop baseName library.scope) (library.tables.map sourceText)
      (closing library.scope))
  blocks : library.Narrow → ∀ table ∈ library.tables,
    writeDefinition table = put (sourceText table)
  stopped : ¬ library.Narrow → ∀ text, writeSource library baseName ≠ put text
  header : writeHeader library baseName =
    put (headerTop library baseName ++
      enclosed (opening library.scope) (library.tables.map headerText) (closing library.scope) ++
      headerBottom library.target baseName)
  headerBlocks : ∀ table ∈ library.tables, writeDeclaration table = put (headerText table)

theorem composed {library : Library} (h : library.Accepted) (baseName : String) :
    Composed library baseName where
  source := writeSource_eq_separated library baseName
  written narrow := writeSource_eq_put (said_of_narrow narrow) baseName
  blocks narrow := said_of_narrow narrow
  stopped wide _ said := wide (narrow_of_said h said)
  header := writeHeader_eq_put library baseName
  headerBlocks table _ := writeDeclaration_eq_put table

/-- **The blocks of the tables stand apart**: whatever tables are taken out of an accepted library,
and in whatever order the others are left, the others make a library, and its source is the one it
was but for the blocks that are taken out and one separator for each of them. -/
theorem blocks_stand_apart {library : Library} (h : library.Accepted) (baseName : String) :
    Composed library baseName ∧
      ∀ kept deleted : List Table, (kept ++ deleted).Perm library.tables →
        Library.Accepted { library with tables := kept } ∧
        Composed { library with tables := kept } baseName ∧
        ∀ text, writeSource library baseName = put text →
          ∃ text', writeSource { library with tables := kept } baseName = put text' ∧
            text = enclosed (sourceTop baseName library.scope) (library.tables.map sourceText)
              (closing library.scope) ∧
            text' = enclosed (sourceTop baseName library.scope) (kept.map sourceText)
              (closing library.scope) ∧
            (kept ≠ [] → text.utf8ByteSize = text'.utf8ByteSize +
              (deleted.map fun table => (sourceText table).utf8ByteSize + 1).sum) := by
  refine ⟨composed h baseName, ?_⟩
  intro kept deleted perm
  have h' : Library.Accepted { library with tables := kept } := h.of_perm_append perm
  refine ⟨h', composed h' baseName, ?_⟩
  intro text said
  have narrow := narrow_of_said h said
  have narrow' : Library.Narrow { library with tables := kept } :=
    fun table mem => narrow table (perm.mem_iff.1 (List.mem_append_left _ mem))
  have whole := put_injective (said.symm.trans ((composed h baseName).written narrow))
  refine ⟨_, (composed h' baseName).written narrow', whole, rfl, fun filled => ?_⟩
  have blocks := perm.map sourceText
  rw [List.map_append] at blocks
  rw [whole, utf8ByteSize_enclosed_of_perm blocks (mt List.map_eq_nil_iff.1 filled), List.map_map]
  rfl

/-- What is left of a library and of its source when the first of two tables is taken out. -/
theorem blocks_stand_apart_sample :
    Library.sample.Accepted ∧
      Library.Accepted { Library.sample with tables := Library.sample.tables.drop 1 } ∧
      writeSource { Library.sample with tables := Library.sample.tables.drop 1 } "b" =
        put (joined ["#include \"b.h\"", "", "namespace n \x7b", "",
          "static const int g_a_v[1] = \x7b 4 \x7d;", "", "const int gs[1] = \x7b", "  g_a_v,",
          "\x7d;", "", "\x7d // namespace n"]) := by
  have perm : (Library.sample.tables.drop 1 ++ Library.sample.tables.take 1).Perm
      Library.sample.tables := List.perm_append_comm
  obtain ⟨-, parts⟩ := blocks_stand_apart Library.accepted_sample "b"
  obtain ⟨accepted, left, -⟩ := parts _ _ perm
  refine ⟨Library.accepted_sample, accepted, ?_⟩
  rw [left.written (by decide)]
  congr 1
  decide +kernel

end GlyphTables.Cpp
