import GlyphTables.Proofs.Cpp.Reading
import GlyphTables.Proofs.Library.Assembly

/-!
# The names in the generated code

The identifiers of a table, by which a library is checked, are listed apart from the code that is
written for it. Here the two are compared.

* `declared_eq`, `defined_eq` : the names that the two blocks of a table introduce;
* `mem_declared_or_defined_iff` : together they are the identifiers of the table;
* `subperm_declared`, `subperm_defined` : neither block introduces one of them twice;
* `readAs_header`, `readAs_source` : their lines can be read from their text alone;
* `names_eq_identifiers` : so no name comes twice in a file of an accepted library.
-/

namespace GlyphTables.Cpp

/-! ## The blocks of a table -/

/-- The names that the header introduces for a table. -/
def declared (table : Table) : List String :=
  names (headerBlock table).code

/-- The names that the source introduces for a table. -/
def defined (table : Table) : List String :=
  names (sourceBlock table).code

theorem names_enumeration (e : Enumeration) :
    names e.code = e.name :: e.enumerators ++ [e.count] := by
  have enumerators : names (e.enumerators.map .enumerator) = e.enumerators.map id :=
    names_map (fun _ => rfl) _
  simp [Enumeration.code, Line.name?, enumerators]

theorem names_declarations (table : Table) :
    names ((table.entries.map (entryDeclarator table)).map .declaration) =
      table.entries.map table.dataName := by
  rw [List.map_map]
  exact names_map (fun _ => rfl) _

theorem names_definitions (table : Table) :
    names ((table.entries.map (entryDefinition table)).map .definition) =
      table.entries.map table.dataName := by
  rw [List.map_map]
  exact names_map (fun _ => rfl) _

theorem names_row (row : Row) : names row.code = [] := by
  unfold Row.code
  cases row.label <;> simp [Line.name?]

theorem names_rows (rows : List Row) : names (rows.flatMap Row.code) = [] := by
  induction rows with
  | nil => rfl
  | cons row rows ih => rw [List.flatMap_cons, names_append, names_row, ih, List.append_nil]

/-- The names of an enumeration in the order in which they are written. -/
def enumeratedNames (table : Table) : List String :=
  match table.metadata.kind with
  | .enumerated => table.enumName :: table.entries.map table.symbol ++ [table.countSymbol]
  | .array => []

/-- The data arrays that the header declares. -/
def aliasNames (table : Table) : List String :=
  if table.metadata.useAliases then table.entries.map table.dataName else []

theorem declared_eq (table : Table) :
    declared table = enumeratedNames table ++ [table.arrayName] ++ aliasNames table := by
  unfold declared headerBlock HeaderBlock.code enumeration? enumeratedNames aliasNames
  cases table.metadata.kind <;> cases table.metadata.useAliases <;>
    simp [names_enumeration, names_declarations, Line.name?, tableDeclarator, -List.map_map]

theorem defined_eq (table : Table) :
    defined table = table.entries.map table.dataName ++ [table.arrayName] := by
  simp [defined, sourceBlock, SourceBlock.code, names_definitions, names_rows, Line.name?,
    tableDeclarator, -List.map_map]

/-- The identifiers of a table in the order of the code. -/
theorem perm_identifiers (table : Table) :
    (enumeratedNames table ++ [table.arrayName] ++ table.entries.map table.dataName).Perm
      table.identifiers := by
  unfold enumeratedNames Table.identifiers
  refine List.perm_append_comm.append_right _ |>.trans ?_
  cases table.metadata.kind with
  | array => rfl
  | enumerated =>
    refine (List.Perm.append_left _ ?_).append_right _
    rw [Table.enumIdentifiers, List.cons_append, List.cons_append]
    exact List.Perm.cons _ List.perm_append_comm

/-- Header and source introduce the identifiers of a table between them, and nothing else. -/
theorem mem_declared_or_defined_iff (table : Table) (name : String) :
    name ∈ declared table ∨ name ∈ defined table ↔ name ∈ table.identifiers := by
  rw [← (perm_identifiers table).mem_iff, declared_eq, defined_eq]
  unfold aliasNames
  cases table.metadata.useAliases <;> simp only [List.mem_append, Bool.false_eq_true, if_false,
    if_true, List.not_mem_nil, or_false] <;> tauto

theorem subperm_declared (table : Table) : (declared table).Subperm table.identifiers := by
  have aliases : (aliasNames table).Sublist (table.entries.map table.dataName) := by
    unfold aliasNames
    split
    · exact .refl _
    · exact List.nil_sublist _
  rw [declared_eq]
  exact (aliases.append_left _).subperm.trans (perm_identifiers table).subperm

theorem subperm_defined (table : Table) : (defined table).Subperm table.identifiers := by
  rw [defined_eq]
  refine List.perm_append_comm.subperm.trans (.trans ?_ (perm_identifiers table).subperm)
  rw [List.append_assoc]
  exact (List.sublist_append_right _ _).subperm

section WellNamed

variable {table : Table} (h : table.WellNamed)
include h

theorem isIdentifier_enumName : isIdentifier table.enumName = true :=
  isIdentifier_symbol h.symbolPrefix (by decide +kernel)

theorem isIdentifier_countSymbol : isIdentifier table.countSymbol = true :=
  isIdentifier_symbol h.symbolPrefix (by decide +kernel)

theorem isIdentifier_tableSymbol {entry : Table.Entry} (mem : entry ∈ table.entries) :
    isIdentifier (table.symbol entry) = true :=
  isIdentifier_symbol h.symbolPrefix (h.entryNames entry mem)

theorem isIdentifier_tableDataName {entry : Table.Entry} (mem : entry ∈ table.entries) :
    isIdentifier (table.dataName entry) = true :=
  isIdentifier_dataName h.name (h.entryNames entry mem) (h.arrayNames entry mem)

theorem isIdentifier_arrayName : isIdentifier table.arrayName = true :=
  isIdentifier_append h.name (by simp [isIdentifierTail])

/-- All names of a well-named table are identifiers. -/
theorem isIdentifier_of_mem_identifiers {name : String} (mem : name ∈ table.identifiers) :
    isIdentifier name = true := by
  rw [← (perm_identifiers table).mem_iff] at mem
  obtain mem | mem := List.mem_append.1 mem
  · obtain mem | mem := List.mem_append.1 mem
    · unfold enumeratedNames at mem
      cases hk : table.metadata.kind with
      | array => simp [hk] at mem
      | enumerated =>
        simp only [hk, List.cons_append, List.mem_cons, List.mem_append, List.mem_map,
          List.not_mem_nil, or_false] at mem
        obtain rfl | ⟨entry, entryMem, rfl⟩ | rfl := mem
        · exact isIdentifier_enumName h
        · exact isIdentifier_tableSymbol h entryMem
        · exact isIdentifier_countSymbol h
    · rw [List.mem_singleton.1 mem]
      exact isIdentifier_arrayName h
  · obtain ⟨entry, entryMem, rfl⟩ := List.mem_map.1 mem
    exact isIdentifier_tableDataName h entryMem

/-! ## The text of the blocks -/

theorem worded_tableDeclarator : (tableDeclarator table).Worded := by
  refine ⟨isWord_of_isIdentifier (isIdentifier_arrayName h), ?_⟩
  unfold tableDeclarator countExpression
  cases table.metadata.kind with
  | enumerated => exact isWord_of_isIdentifier (isIdentifier_countSymbol h)
  | array => exact isWord_natural _

theorem worded_entryDeclarator {entry : Table.Entry} (mem : entry ∈ table.entries) :
    (entryDeclarator table entry).Worded :=
  ⟨isWord_of_isIdentifier (isIdentifier_tableDataName h mem), isWord_natural _⟩

theorem worded_enumeration {e : Enumeration} (enumerated : enumeration? table = some e) :
    ∀ line ∈ e.code, line.Worded := by
  unfold enumeration? at enumerated
  cases hk : table.metadata.kind with
  | array => simp [hk] at enumerated
  | enumerated =>
    simp only [hk, Option.some.injEq] at enumerated
    subst enumerated
    intro line mem
    simp only [Enumeration.code, List.mem_append, List.mem_map, List.mem_cons, List.not_mem_nil,
      or_false] at mem
    obtain (rfl | ⟨_, ⟨entry, entryMem, rfl⟩, rfl⟩) | rfl | rfl := mem
    · exact isWord_of_isIdentifier (isIdentifier_enumName h)
    · exact isWord_of_isIdentifier (isIdentifier_tableSymbol h entryMem)
    · exact isWord_of_isIdentifier (isIdentifier_countSymbol h)
    · trivial

/-- The names of a table are identifiers, and so its declarations can be read. -/
theorem worded_headerBlock : ∀ line ∈ (headerBlock table).code, line.Worded := by
  intro line mem
  simp only [HeaderBlock.code, headerBlock, List.mem_append] at mem
  obtain (mem | mem) | mem := mem
  · cases he : enumeration? table with
    | none => simp [he] at mem
    | some e =>
      simp only [he, List.mem_append, List.mem_singleton] at mem
      obtain mem | rfl := mem
      · exact worded_enumeration h he line mem
      · exact .inl rfl
  · obtain rfl := List.mem_singleton.1 mem
    exact worded_tableDeclarator h
  · cases ha : table.metadata.useAliases with
    | false => simp [ha] at mem
    | true =>
      simp only [ha, if_true, List.mem_cons, List.mem_map] at mem
      obtain rfl | ⟨_, ⟨entry, entryMem, rfl⟩, rfl⟩ := mem
      · exact .inl rfl
      · exact worded_entryDeclarator h entryMem

theorem worded_row {entry : Table.Entry} (mem : entry ∈ table.entries) :
    ∀ line ∈ (entryRow table entry).code, line.Worded := by
  intro line lineMem
  simp only [Row.code, entryRow, List.mem_append, List.mem_singleton] at lineMem
  obtain label | rfl := lineMem
  · cases hk : table.metadata.kind with
    | array => simp [hk] at label
    | enumerated =>
      simp only [hk, List.mem_singleton] at label
      exact label ▸ .inr ⟨_, rfl⟩
  · exact isWord_of_isIdentifier (isIdentifier_tableDataName h mem)

theorem worded_sourceBlock : ∀ line ∈ (sourceBlock table).code, line.Worded := by
  intro line mem
  simp only [SourceBlock.code, sourceBlock, List.mem_append, List.mem_map, List.mem_cons,
    List.not_mem_nil, or_false, List.mem_flatMap] at mem
  obtain ((⟨_, ⟨entry, entryMem, rfl⟩, rfl⟩ | rfl | rfl) | ⟨_, ⟨entry, entryMem, rfl⟩, mem⟩) | rfl :=
    mem
  · exact ⟨worded_entryDeclarator h entryMem, h.filled entry entryMem⟩
  · exact .inl rfl
  · exact worded_tableDeclarator h
  · exact worded_row h entryMem line mem
  · trivial

end WellNamed

/-! ## The files -/

/-- What repeats nothing still repeats nothing when something is taken away from its parts. -/
theorem nodup_flatMap_of_subperm {α β : Type} {f g : α → List β} (less : ∀ x, (f x).Subperm (g x))
    {xs : List α} (h : (xs.flatMap g).Nodup) : (xs.flatMap f).Nodup := by
  obtain ⟨within, across⟩ := List.nodup_flatMap.1 h
  refine List.nodup_flatMap.2 ⟨fun x hx => ?_, ?_⟩
  · obtain ⟨part, perm, sublist⟩ := less x
    exact perm.nodup_iff.1 ((within x hx).sublist sublist)
  · refine across.imp fun {x y} disjoint => ?_
    exact List.disjoint_of_subset_left (less x).subset
      (List.disjoint_of_subset_right (less y).subset disjoint)

theorem count_names {code : List Line} (once : (names code).Nodup) {line : Line} {name : String}
    (mem : line ∈ code) (named : line.name? = some name) : (names code).count name = 1 :=
  List.count_eq_one_of_mem once (mem_names mem named)

/-- No name is declared twice. -/
theorem nodup_headerCode {library : Library} (h : library.Accepted) (baseName : String) :
    (names (headerCode library baseName)).Nodup := by
  rw [names_headerCode]
  exact nodup_flatMap_of_subperm subperm_declared h.unique

theorem nodup_sourceCode {library : Library} (h : library.Accepted) (baseName : String) :
    (names (sourceCode library baseName)).Nodup := by
  rw [names_sourceCode]
  exact nodup_flatMap_of_subperm subperm_defined h.unique

theorem readAs_header {library : Library} (h : library.Accepted) (baseName : String) :
    ReadAs (header library baseName) (headerCode library baseName) := by
  refine readAs_page (map_text?_headerCode library baseName) ?_
  rw [List.forall_mem_map]
  exact fun table mem => worded_headerBlock (h.wellNamed mem)

theorem readAs_source {library : Library} (h : library.Accepted) (baseName : String) :
    ReadAs (source library baseName) (sourceCode library baseName) := by
  refine readAs_page (map_text?_sourceCode library baseName) ?_
  rw [List.forall_mem_map]
  exact fun table mem => worded_sourceBlock (h.wellNamed mem)

/-- **The names in the generated files are the identifiers of the tables, each once in a file.** -/
theorem names_eq_identifiers {library : Library} (h : library.Accepted) (baseName : String) :
    (ReadAs (header library baseName) (headerCode library baseName) ∧
      ReadAs (source library baseName) (sourceCode library baseName)) ∧
    (names (headerCode library baseName) = library.tables.flatMap declared ∧
      names (sourceCode library baseName) = library.tables.flatMap defined) ∧
    (∀ table ∈ library.tables,
      (∀ name, name ∈ declared table ∨ name ∈ defined table ↔ name ∈ table.identifiers) ∧
        ∀ name ∈ table.identifiers, isIdentifier name = true) ∧
    (names (headerCode library baseName)).Nodup ∧ (names (sourceCode library baseName)).Nodup := by
  refine ⟨⟨readAs_header h baseName, readAs_source h baseName⟩,
    ⟨names_headerCode library baseName, names_sourceCode library baseName⟩, ?_,
    nodup_headerCode h baseName, nodup_sourceCode h baseName⟩
  intro table mem
  exact ⟨mem_declared_or_defined_iff table,
    fun _ => isIdentifier_of_mem_identifiers (h.wellNamed mem)⟩

theorem names_eq_identifiers_sample :
    names (headerCode .sample "b") =
        ["F_RESID", "F_A", "F_B", "F_LAST", "fs", "f_a_v", "f_b_v", "gs"] ∧
      names (sourceCode .sample "b") = ["f_a_v", "f_b_v", "fs", "g_a_v", "gs"] ∧
      (names (headerCode .sample "b")).Nodup ∧ (names (sourceCode .sample "b")).Nodup := by
  obtain ⟨-, ⟨header, source⟩, -, once⟩ := names_eq_identifiers Library.accepted_sample "b"
  refine ⟨header.trans ?_, source.trans ?_, once⟩
  · cbv
  · cbv

end GlyphTables.Cpp
