import GlyphTables.Cpp.File
import GlyphTables.Proofs.Library.Assembly
import GlyphTables.Proofs.Lists
import GlyphTables.Proofs.Table.Contents

/-!
# Letter case does not matter

Prefixes, names of entries and names of arrays can be written in any letter case: all that is made of
them is brought to one case, and all checks heed nothing else. Where the checks compare the names
themselves, a later check refuses what differs in letter case only.

* `Table.Variant.identifiers_eq` : tables that differ in letter case take the same identifiers;
* `Table.Variant.wellNamed` : they keep the naming rules together;
* `Table.Sketch.Variant.exists_make` : so descriptions that differ in letter case make such tables;
* `Library.objection?_congr` : the same speaks against libraries of such tables;
* `Cpp.header_congr`, `Cpp.source_congr` : and the same code is written for them;
* `Library.Sketch.Variant.indistinguishable` : all of it, from the descriptions to the code.
-/

namespace GlyphTables

/-! ## Variants -/

/-- The arrays differ at most in the letter case of their names. -/
structure DataArray.Variant (a b : DataArray) : Prop where
  name : eqIgnoringCase a.name b.name = true
  others : { a with name := b.name } = b

theorem DataArray.Variant.symm {a b : DataArray} (h : a.Variant b) : b.Variant a := by
  refine ⟨eqIgnoringCase_comm a.name b.name ▸ h.name, ?_⟩
  rw [← h.others]

namespace Table

/-- The metadata differ at most in the letter case of the prefixes. -/
structure Metadata.Variant (m n : Metadata) : Prop where
  symbolPrefix : eqIgnoringCase m.symbolPrefix n.symbolPrefix = true
  others : { m with symbolPrefix := n.symbolPrefix } = n

theorem Metadata.Variant.symm {m n : Metadata} (h : m.Variant n) : n.Variant m := by
  refine ⟨eqIgnoringCase_comm m.symbolPrefix n.symbolPrefix ▸ h.symbolPrefix, ?_⟩
  rw [← h.others]

/-- The entries differ at most in the letter case of their names and of those of their arrays. -/
structure Entry.Variant (e f : Entry) : Prop where
  name : eqIgnoringCase e.name f.name = true
  array : e.array.Variant f.array

structure Variant (t u : Table) : Prop where
  metadata : t.metadata.Variant u.metadata
  entries : List.Forall₂ Entry.Variant t.entries u.entries

/-! ## The names of a table -/

section Names

variable {m n : Metadata} {e f : Entry} {t u : Table}

theorem Metadata.Variant.name_eq (h : m.Variant n) : m.name = n.name := by
  rw [← h.others]

theorem Metadata.Variant.kind_eq (h : m.Variant n) : m.kind = n.kind := by
  rw [← h.others]

/-- The case of a symbol is made up anew, whatever it was in the stem and the name. -/
theorem Metadata.Variant.symbol_eq (h : m.Variant n) {a b : String}
    (same : eqIgnoringCase a b = true) : m.symbol a = n.symbol b := by
  rw [eqIgnoringCase_iff, ← toUpper_eq_toUpper_iff] at same
  have stems := (toUpper_eq_toUpper_iff _ _).2 ((eqIgnoringCase_iff _ _).1 h.symbolPrefix)
  simp only [Metadata.symbol, symbol_eq_append, same, stems]

theorem Metadata.Variant.dataName_eq (h : m.Variant n) (he : e.Variant f) :
    m.dataName e.name e.array = n.dataName f.name f.array := by
  have entries := (eqIgnoringCase_iff _ _).1 he.name
  have arrays := (eqIgnoringCase_iff _ _).1 he.array.name
  simp only [Metadata.dataName, dataName_eq_append, h.name_eq, entries, arrays]

theorem Variant.symbol_eq (h : t.Variant u) (he : e.Variant f) : t.symbol e = u.symbol f :=
  h.metadata.symbol_eq he.name

theorem Variant.dataName_eq (h : t.Variant u) (he : e.Variant f) : t.dataName e = u.dataName f :=
  h.metadata.dataName_eq he

theorem Variant.arrayName_eq (h : t.Variant u) : t.arrayName = u.arrayName := by
  rw [arrayName, arrayName, h.metadata.name_eq]

theorem Variant.enumName_eq (h : t.Variant u) : t.enumName = u.enumName :=
  h.metadata.symbol_eq (by simp [eqIgnoringCase])

theorem Variant.countSymbol_eq (h : t.Variant u) : t.countSymbol = u.countSymbol :=
  h.metadata.symbol_eq (by simp [eqIgnoringCase])

theorem Variant.symbols_eq (h : t.Variant u) :
    t.entries.map t.symbol = u.entries.map u.symbol :=
  map_eq_of_forall₂ (fun _ _ => h.symbol_eq) h.entries

theorem Variant.dataNames_eq (h : t.Variant u) :
    t.entries.map t.dataName = u.entries.map u.dataName :=
  map_eq_of_forall₂ (fun _ _ => h.dataName_eq) h.entries

/-- The generated identifiers show nothing of the case in which the names were given. -/
theorem Variant.identifiers_eq (h : t.Variant u) : t.identifiers = u.identifiers := by
  unfold identifiers enumIdentifiers
  rw [h.metadata.kind_eq, h.arrayName_eq, h.enumName_eq, h.countSymbol_eq, h.symbols_eq,
    h.dataNames_eq]

end Names

/-! ## The naming rules -/

/-- Names that differ in more than letter case are the same as different constants. -/
theorem distinctNames_iff (t : Table) :
    (t.entries.Pairwise fun a b => eqIgnoringCase a.name b.name = false) ↔
      (t.entries.map t.symbol).Nodup := by
  rw [List.Nodup, List.pairwise_map]
  simp only [ne_eq, symbol_eq_iff, Bool.not_eq_true]

/-- The rules on names do not see the case of letters. -/
theorem Variant.wellNamed {t u : Table} (h : t.Variant u) (named : t.WellNamed) : u.WellNamed := by
  constructor
  case name =>
    rw [Table.name, ← h.metadata.name_eq]
    exact named.name
  case symbolPrefix =>
    rw [← isIdentifier_congr h.metadata.symbolPrefix]
    exact named.symbolPrefix
  case entryNames =>
    refine forall_mem_of_forall₂ (fun e f he good => ?_) h.entries named.entryNames
    rwa [← isIdentifier_congr he.name]
  case arrayNames =>
    refine forall_mem_of_forall₂ (fun e f he good => ?_) h.entries named.arrayNames
    rwa [← isIdentifier_congr he.array.name]
  case filled =>
    refine forall_mem_of_forall₂ (fun e f he good => ?_) h.entries named.filled
    rw [← he.array.others]
    exact good
  case distinctNames =>
    rw [distinctNames_iff, ← h.symbols_eq]
    exact named.distinctSymbols
  case distinctSymbols =>
    rw [← h.symbols_eq]
    exact named.distinctSymbols
  case distinctDataNames =>
    rw [← h.dataNames_eq]
    exact named.distinctDataNames
  case unreserved =>
    rw [← h.metadata.kind_eq, ← h.countSymbol_eq, ← h.enumName_eq]
    intro kind
    refine forall_mem_of_forall₂ (fun e f he good => ?_) h.entries (named.unreserved kind)
    rwa [← h.symbol_eq he]

/-! ## Descriptions of tables -/

/-- What a table is to be made of. -/
structure Sketch where
  metadata : Metadata
  contents : List (String × Builder.Content)

def Sketch.make (sketch : Sketch) : Logged TableError Table :=
  ofContents sketch.metadata sketch.contents

/-- The contents differ at most in the letter case of the names of arrays. The text of a glyph has no
name in it. -/
inductive Builder.Content.Variant : Builder.Content → Builder.Content → Prop where
  | array {a b : DataArray} (variant : a.Variant b) : Variant (.array a) (.array b)
  | glyph (text : String) : Variant (.glyph text) (.glyph text)

theorem Builder.Content.Variant.symm {c d : Builder.Content} (h : c.Variant d) : d.Variant c := by
  cases h with
  | array variant => exact .array variant.symm
  | glyph text => exact .glyph text

/-- The descriptions differ at most in letter case. -/
structure Sketch.Variant (s s' : Sketch) : Prop where
  metadata : s.metadata.Variant s'.metadata
  contents : List.Forall₂ (fun c d => eqIgnoringCase c.1 d.1 = true ∧ c.2.Variant d.2)
    s.contents s'.contents

theorem Sketch.Variant.symm {s s' : Sketch} (h : s.Variant s') : s'.Variant s := by
  refine ⟨h.metadata.symm, h.contents.flip.imp fun c d related => ?_⟩
  exact ⟨eqIgnoringCase_comm d.1 c.1 ▸ related.1, related.2.symm⟩

theorem Builder.Content.Variant.exists_array? {c d : Builder.Content} (h : c.Variant d)
    {a : DataArray} (isData : c.array? = some a) : ∃ b, d.array? = some b ∧ a.Variant b := by
  cases h with
  | array variant =>
    obtain rfl := Option.some.inj isData
    exact ⟨_, rfl, variant⟩
  | glyph text =>
    refine ⟨a, isData, ⟨?_, rfl⟩⟩
    simp [eqIgnoringCase]

theorem exists_entries?_of_forall₂ {contents contents' : List (String × Builder.Content)}
    (h : List.Forall₂ (fun c d => eqIgnoringCase c.1 d.1 = true ∧ c.2.Variant d.2)
      contents contents')
    {entries : List Entry} (areData : entries? contents = some entries) :
    ∃ entries', entries? contents' = some entries' ∧
      List.Forall₂ Entry.Variant entries entries' := by
  induction h generalizing entries with
  | nil =>
    obtain rfl : [] = entries := Option.some.inj areData
    exact ⟨[], rfl, .nil⟩
  | cons related _ ih =>
    obtain ⟨array, others, isData, othersData, rfl⟩ :=
      (entries?_cons_eq_some_iff _ _ _).1 areData
    obtain ⟨array', isData', variant⟩ := related.2.exists_array? isData
    obtain ⟨others', othersData', variants⟩ := ih othersData
    exact ⟨_, (entries?_cons_eq_some_iff _ _ _).2 ⟨array', others', isData', othersData', rfl⟩,
      .cons ⟨related.1, variant⟩ variants⟩

/-- What one description makes, the other makes in its own letters. -/
theorem Sketch.Variant.exists_make {s s' : Sketch} (h : s.Variant s') {t : Table}
    (made : s.make.outcome = .ok t) : ∃ u, s'.make.outcome = .ok u ∧ t.Variant u := by
  obtain ⟨metadata, areData, named, filled⟩ := (ofContents_eq_ok_iff _ _ _).1 made
  obtain ⟨entries, areData', variants⟩ := exists_entries?_of_forall₂ h.contents areData
  have variant : t.Variant ⟨s'.metadata, entries⟩ := ⟨metadata ▸ h.metadata, variants⟩
  refine ⟨_, (ofContents_eq_ok_iff _ _ _).2 ⟨rfl, areData', variant.wellNamed named, ?_⟩, variant⟩
  rintro rfl
  exact filled (List.forall₂_nil_right_iff.1 variants)

/-- Sketches that differ in case make tables that differ in case. -/
theorem Sketch.Variant.variant_of_make {s s' : Sketch} (h : s.Variant s') {t u : Table}
    (made : s.make.outcome = .ok t) (made' : s'.make.outcome = .ok u) : t.Variant u := by
  obtain ⟨u', made'', variant⟩ := h.exists_make made
  obtain rfl := Except.ok.inj (made'.symm.trans made'')
  exact variant

end Table

/-! ## The checks of a library -/

namespace Library

theorem eqIgnoringCase_congr {a b c d : String} (left : eqIgnoringCase a b = true)
    (right : eqIgnoringCase c d = true) : eqIgnoringCase a c = eqIgnoringCase b d := by
  rw [eqIgnoringCase_iff] at left right
  rw [eqIgnoringCase, eqIgnoringCase, left, right]

theorem sharesName_congr {t u t' u' : Table} (h : t.Variant u) (h' : t'.Variant u') :
    sharesName t t' = sharesName u u' := by
  unfold sharesName
  rw [eqIgnoringCase_congr h.metadata.symbolPrefix h'.metadata.symbolPrefix, Table.name, Table.name,
    h.metadata.name_eq, h'.metadata.name_eq]
  rfl

theorem any_sharesName_congr {before before' : List Table} {t u : Table}
    (hb : List.Forall₂ Table.Variant before before') (h : t.Variant u) :
    (before.any fun earlier => sharesName earlier t) =
      before'.any fun earlier => sharesName earlier u := by
  induction hb with
  | nil => rfl
  | cons first _ ih => rw [List.any_cons, List.any_cons, sharesName_congr first h, ih]

theorem firstRepeat?_congr {before before' tables tables' : List Table}
    (hb : List.Forall₂ Table.Variant before before')
    (h : List.Forall₂ Table.Variant tables tables') :
    (firstRepeat? before tables).map Table.name = (firstRepeat? before' tables').map Table.name := by
  induction h generalizing before before' with
  | nil => rfl
  | cons first _ ih =>
    rw [firstRepeat?, firstRepeat?, any_sharesName_congr hb first]
    split
    · exact congrArg some first.metadata.name_eq
    · exact ih (.cons first hb)

theorem claims_congr {tables tables' : List Table}
    (h : List.Forall₂ Table.Variant tables tables') : claims tables = claims tables' := by
  refine flatMap_eq_of_forall₂ (fun t u variant => ?_) h
  rw [variant.identifiers_eq, Table.name, variant.metadata.name_eq]
  rfl

/-- Tables that differ in case meet the same objection. -/
theorem objection?_congr {tables tables' : List Table}
    (h : List.Forall₂ Table.Variant tables tables') (target : String) :
    objection? target tables = objection? target tables' := by
  have named : ∀ tables : List Table,
      ((firstRepeat? [] tables).map fun table => LibraryError.duplicateTable table.name) =
        ((firstRepeat? [] tables).map Table.name).map .duplicateTable := by
    intro tables
    rw [Option.map_map]
    rfl
  have split := fun tables => objection?_eq ⟨target, "", [], "", tables⟩
  simp only at split
  rw [split, split, named, named, firstRepeat?_congr .nil h, claims_congr h]

/-- Both libraries are accepted, or both are rejected for the same reason. -/
theorem outcome_assemble_congr {library : Library} {tables : List Table}
    (h : List.Forall₂ Table.Variant library.tables tables) :
    (∃ e, library.assemble.outcome = .error e ∧
      { library with tables }.assemble.outcome = .error e) ∨
    (library.assemble.outcome = .ok library ∧
      { library with tables }.assemble.outcome = .ok { library with tables }) := by
  rw [outcome_assemble, outcome_assemble, objection?_congr h library.target]
  cases objection? library.target tables with
  | some error => exact .inl ⟨error, rfl, rfl⟩
  | none => exact .inr ⟨rfl, rfl⟩

end Library

/-! ## The code -/

namespace Cpp

variable {t u : Table}

theorem tableDeclarator_congr (h : t.Variant u) : tableDeclarator t = tableDeclarator u := by
  unfold tableDeclarator countExpression
  rw [h.arrayName_eq, h.countSymbol_eq, h.metadata.kind_eq, h.entries.length_eq,
    ← h.metadata.others]

theorem entryDeclarator_congr (h : t.Variant u) {e f : Table.Entry} (he : e.Variant f) :
    entryDeclarator t e = entryDeclarator u f := by
  unfold entryDeclarator
  rw [h.dataName_eq he, ← he.array.others]
  rfl

/-- The header says the same of tables that differ in case. -/
theorem headerBlock_congr (h : t.Variant u) : headerBlock t = headerBlock u := by
  have enumerations : enumeration? t = enumeration? u := by
    unfold enumeration?
    rw [h.enumName_eq, h.symbols_eq, h.countSymbol_eq, h.metadata.kind_eq]
  have declarators : t.entries.map (entryDeclarator t) = u.entries.map (entryDeclarator u) :=
    map_eq_of_forall₂ (fun _ _ => entryDeclarator_congr h) h.entries
  have aliases : t.metadata.useAliases = u.metadata.useAliases := by
    rw [← h.metadata.others]
  unfold headerBlock
  rw [enumerations, tableDeclarator_congr h, declarators, aliases]

theorem sourceBlock_congr (h : t.Variant u) : sourceBlock t = sourceBlock u := by
  have definitions : t.entries.map (entryDefinition t) = u.entries.map (entryDefinition u) := by
    refine map_eq_of_forall₂ (fun e f he => ?_) h.entries
    unfold entryDefinition
    rw [entryDeclarator_congr h he, ← he.array.others, ← h.metadata.others]
  have rows : t.entries.map (entryRow t) = u.entries.map (entryRow u) := by
    refine map_eq_of_forall₂ (fun e f he => ?_) h.entries
    unfold entryRow
    rw [h.symbol_eq he, h.dataName_eq he, h.metadata.kind_eq]
  unfold sourceBlock
  rw [definitions, tableDeclarator_congr h, rows]

variable {library : Library} {tables : List Table}

theorem header_congr (h : List.Forall₂ Table.Variant library.tables tables) (baseName : String) :
    header library baseName = header { library with tables } baseName := by
  have directives : Cpp.includes library = Cpp.includes { library with tables } := by
    unfold Cpp.includes
    rw [flatMap_eq_of_forall₂ (fun t u variant => ?_) h]
    rw [← variant.metadata.others]
  have blocks : (library.tables.map fun table => (headerBlock table).lines) =
      tables.map fun table => (headerBlock table).lines := by
    refine map_eq_of_forall₂ (fun t u variant => ?_) h
    rw [headerBlock_congr variant]
  unfold header headerLines headerBlocks includeLines
  rw [directives, blocks]

theorem source_congr (h : List.Forall₂ Table.Variant library.tables tables) (baseName : String) :
    source library baseName = source { library with tables } baseName := by
  have blocks : (library.tables.map fun table => (sourceBlock table).lines) =
      tables.map fun table => (sourceBlock table).lines := by
    refine map_eq_of_forall₂ (fun t u variant => ?_) h
    rw [sourceBlock_congr variant]
  unfold source sourceBlocks
  rw [blocks]

end Cpp

/-! ## From descriptions to code -/

namespace Library

/-- What a library is to be made of. -/
structure Sketch where
  target : String
  scope : String
  includes : List String
  preamble : String
  tables : List Table.Sketch

/-- The library that is to be, once its tables are made. -/
def Sketch.library (sketch : Sketch) (tables : List Table) : Library :=
  ⟨sketch.target, sketch.scope, sketch.includes, sketch.preamble, tables⟩

/-- Each table is made of its description. -/
def Sketch.Makes (sketch : Sketch) (tables : List Table) : Prop :=
  List.Forall₂ (fun s table => s.make.outcome = .ok table) sketch.tables tables

/-- The descriptions differ at most in letter case: in that of prefixes, names of entries and names of
arrays. -/
structure Sketch.Variant (s s' : Sketch) : Prop where
  tables : List.Forall₂ Table.Sketch.Variant s.tables s'.tables
  others : { s with tables := s'.tables } = s'

theorem Sketch.Variant.variants_of_makes {s s' : Sketch} (h : s.Variant s')
    {tables tables' : List Table} (made : s.Makes tables) (made' : s'.Makes tables') :
    List.Forall₂ Table.Variant tables tables' := by
  obtain ⟨target, scope, includes, preamble, sketches⟩ := s
  obtain ⟨target', scope', includes', preamble', sketches'⟩ := s'
  have related : List.Forall₂ Table.Sketch.Variant sketches sketches' := h.tables
  unfold Sketch.Makes at made made'
  simp only at made made'
  clear h
  induction related generalizing tables tables' with
  | nil =>
    cases made
    cases made'
    exact .nil
  | cons first _ ih =>
    cases made with
    | cons one others =>
      cases made' with
      | cons one' others' => exact .cons (first.variant_of_make one one') (ih others others')

/-- **Letter case is immaterial from the description to the code.** -/
theorem Sketch.Variant.indistinguishable {s s' : Sketch} (h : s.Variant s') :
    List.Forall₂ (fun t t' => (∃ table, t.make.outcome = .ok table) ↔
      ∃ table, t'.make.outcome = .ok table) s.tables s'.tables ∧
    ∀ tables tables', s.Makes tables → s'.Makes tables' →
      (∃ e, (s.library tables).assemble.outcome = .error e ∧
        (s'.library tables').assemble.outcome = .error e) ∨
      ((s.library tables).assemble.outcome = .ok (s.library tables) ∧
        (s'.library tables').assemble.outcome = .ok (s'.library tables') ∧
        ∀ baseName, Cpp.header (s.library tables) baseName = Cpp.header (s'.library tables') baseName ∧
          Cpp.source (s.library tables) baseName = Cpp.source (s'.library tables') baseName) := by
  constructor
  · refine h.tables.imp fun t t' variant => ⟨?_, ?_⟩
    · rintro ⟨table, made⟩
      obtain ⟨table', made', -⟩ := variant.exists_make made
      exact ⟨table', made'⟩
    · rintro ⟨table, made⟩
      obtain ⟨table', made', -⟩ := variant.symm.exists_make made
      exact ⟨table', made'⟩
  · intro tables tables' made made'
    have variants : List.Forall₂ Table.Variant (s.library tables).tables tables' :=
      h.variants_of_makes made made'
    have same : s'.library tables' = { s.library tables with tables := tables' } := by
      rw [← h.others]
      rfl
    rw [same]
    refine (outcome_assemble_congr variants).imp_right fun ⟨accepted, accepted'⟩ => ?_
    refine ⟨accepted, accepted', fun baseName => ?_⟩
    exact ⟨Cpp.header_congr variants baseName, Cpp.source_congr variants baseName⟩

/-- A library with arrays, described as it is. -/
def sketch (library : Library) : Sketch where
  target := library.target
  scope := library.scope
  includes := library.includes
  preamble := library.preamble
  tables := library.tables.map fun table =>
    ⟨table.metadata, table.entries.map fun entry => (entry.name, .array entry.array)⟩

/-- An accepted library is made of its description. -/
theorem Accepted.makes_sketch {library : Library} (h : library.Accepted) :
    library.sketch.Makes library.tables := by
  refine List.forall₂_map_left_iff.2 (List.forall₂_same.2 fun table mem => ?_)
  obtain ⟨named, filled⟩ := table.built_iff.1 (h.built table mem)
  refine (Table.ofContents_eq_ok_iff _ _ table).2 ⟨rfl, ?_, named, filled⟩
  induction table.entries with
  | nil => rfl
  | cons entry rest ih =>
    exact (Table.entries?_cons_eq_some_iff _ _ _).2 ⟨entry.array, rest, rfl, ih, rfl⟩

/-- The sample with its prefixes in lower case and its other names in upper case. -/
def relettered : Library where
  target := "t"
  scope := "n"
  includes := []
  preamble := ""
  tables :=
    [⟨⟨"f", "f", .enumerated, "int", true, []⟩,
        [⟨"A", ⟨"V", "int", [1, 2], .decimal⟩⟩, ⟨"B", ⟨"V", "int", [3], .decimal⟩⟩]⟩,
      ⟨⟨"g", "g", .array, "int", false, []⟩, [⟨"A", ⟨"V", "int", [4], .decimal⟩⟩]⟩]

theorem Sketch.Variant.indistinguishable_relettered :
    sample.sketch.Variant relettered.sketch ∧
      sample.sketch.Makes sample.tables ∧ relettered.sketch.Makes relettered.tables ∧
      relettered.assemble.outcome = .ok relettered ∧
      ∀ baseName, Cpp.header sample baseName = Cpp.header relettered baseName ∧
        Cpp.source sample baseName = Cpp.source relettered baseName := by
  have variant : sample.sketch.Variant relettered.sketch := by
    have prefixes : eqIgnoringCase "F" "f" = true ∧ eqIgnoringCase "G" "g" = true := by
      constructor <;> cbv
    have names : eqIgnoringCase "a" "A" = true ∧ eqIgnoringCase "b" "B" = true := by
      constructor <;> cbv
    have arrays : eqIgnoringCase "v" "V" = true := by cbv
    constructor
    case others => rfl
    case tables =>
      refine .cons ⟨⟨prefixes.1, rfl⟩, ?_⟩ (.cons ⟨⟨prefixes.2, rfl⟩, ?_⟩ .nil)
      · refine .cons ⟨names.1, .array ⟨arrays, rfl⟩⟩ (.cons ⟨names.2, ?_⟩ .nil)
        exact .array ⟨arrays, rfl⟩
      · exact .cons ⟨names.1, .array ⟨arrays, rfl⟩⟩ .nil
  have made := accepted_sample.makes_sketch
  have made' : relettered.sketch.Makes relettered.tables :=
    Accepted.makes_sketch (by decide +kernel)
  obtain ⟨-, assembled⟩ := variant.indistinguishable
  obtain ⟨e, refused, -⟩ | ⟨-, accepted, code⟩ := assembled _ _ made made'
  · have contrary := refused.symm.trans accepted_sample.assembled
    cases contrary
  · exact ⟨variant, made, made', accepted, code⟩

end Library

end GlyphTables
