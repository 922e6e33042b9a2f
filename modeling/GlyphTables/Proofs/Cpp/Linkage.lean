import GlyphTables.Proofs.Cpp.Names

/-!
# Linkage in the generated code

An array of the source can be used in other files unless it is `static`, and other files learn of it
from an `extern` line of the header. The two files are written apart, the one with the array of a
table before those of its entries and the other after them.

* `arraysRead_eq` : what the lines say of an array can be read from their text;
* `perm_exported` : the header declares the very arrays that the source defines for other files;
* `dataName_mem_names_headerCode_iff` : it knows the arrays of the entries only as aliases;
* `linkage_agrees` : so the two files fit together, whatever the tables.
-/

namespace GlyphTables.Cpp

/-! ## Reading linkage -/

/-- The arrays of which code says this linkage, each with its type, name and bound. -/
def arrays (linkage : Linkage) (code : List Line) : List Declarator :=
  code.filterMap fun line => line.reading.array? linkage

/-- The arrays of which the text of a draft says this linkage. -/
def arraysRead (linkage : Linkage) (draft : Draft) : List Declarator :=
  draft.filterMap fun line? => line?.bind fun line => (read line).array? linkage

/-- Where all lines can be written and read, the text says what the code says. -/
theorem arraysRead_eq (linkage : Linkage) {code : List Line} {draft : Draft}
    (written : code.map Line.text? = draft) (worded : ∀ line ∈ code, line.Worded)
    (writable : none ∉ draft) : arraysRead linkage draft = arrays linkage code := by
  subst written
  rw [arraysRead, List.filterMap_map, arrays]
  refine List.filterMap_congr fun line mem => ?_
  cases said : line.text? with
  | none => exact absurd (said ▸ List.mem_map_of_mem mem) writable
  | some text => simp [said, read_of_text? (worded line mem) said]

/-! ## The blocks of a table -/

/-- The arrays of the entries. -/
def entryArrays (table : Table) : List Declarator :=
  table.entries.map (entryDeclarator table)

theorem declared_headerBlock (table : Table) :
    arrays .declared (headerBlock table).code =
      tableDeclarator table :: if table.metadata.useAliases then entryArrays table else [] := by
  unfold arrays headerBlock HeaderBlock.code enumeration? entryArrays
  cases table.metadata.kind <;> cases table.metadata.useAliases <;>
    simp [Enumeration.code, Line.reading, Reading.array?, Function.comp_def]

/-- The rows of an array are about no array of their own. -/
theorem arrays_rows (linkage : Linkage) (rows : List Row) :
    arrays linkage (rows.flatMap Row.code) = [] := by
  simp only [arrays, List.filterMap_eq_nil_iff, List.mem_flatMap]
  rintro line ⟨row, -, mem⟩
  unfold Row.code at mem
  cases h : row.label with
  | none =>
    simp only [h, List.nil_append, List.mem_singleton] at mem
    rw [mem]
    rfl
  | some symbol =>
    simp only [h, List.cons_append, List.nil_append, List.mem_cons, List.not_mem_nil,
      or_false] at mem
    obtain rfl | rfl := mem <;> rfl

theorem arrays_definitions (linkage : Linkage) (table : Table) :
    arrays linkage ((table.entries.map (entryDefinition table)).map .definition) =
      if linkage = (if table.metadata.useAliases then .exported else .hidden) then
        entryArrays table
      else [] := by
  rw [arrays, List.filterMap_map, List.filterMap_map, entryArrays]
  cases h : table.metadata.useAliases <;> cases linkage <;>
    simp [Line.reading, Reading.array?, Linkage.ofStatic, entryDefinition, Function.comp_def, h]

theorem arrays_append (linkage : Linkage) (a b : List Line) :
    arrays linkage (a ++ b) = arrays linkage a ++ arrays linkage b :=
  List.filterMap_append

/-- What the source says of the arrays of a table: the arrays of the entries can be used in other
files if they are aliases, and the array of the table always. -/
theorem arrays_sourceBlock (linkage : Linkage) (table : Table) :
    arrays linkage (sourceBlock table).code =
      (if linkage = (if table.metadata.useAliases then .exported else .hidden) then
        entryArrays table
      else []) ++
      if linkage = .exported then [tableDeclarator table] else [] := by
  have last : arrays linkage [.closeArray] = [] := rfl
  have opened : arrays linkage [.plain "", .openArray (tableDeclarator table)] =
      if linkage = .exported then [tableDeclarator table] else [] := by
    cases linkage <;> rfl
  simp only [SourceBlock.code, sourceBlock, arrays_append, arrays_definitions, arrays_rows, opened,
    last, List.append_nil]

/-- The header declares for a table what the source defines for other files. -/
theorem perm_exported (table : Table) :
    (arrays .declared (headerBlock table).code).Perm
      (arrays .exported (sourceBlock table).code) := by
  rw [declared_headerBlock, arrays_sourceBlock, if_pos rfl]
  cases table.metadata.useAliases
  · exact .refl _
  exact (List.perm_append_singleton _ _).symm

/-! ## The files -/

section Table

variable {library : Library} {table : Table}

/-- Tables of an accepted library have no identifier in common. -/
theorem eq_of_mem_identifiers (h : library.Accepted) (mem : table ∈ library.tables) {other : Table}
    (memOther : other ∈ library.tables) {name : String} (nameMem : name ∈ table.identifiers)
    (nameMemOther : name ∈ other.identifiers) : table = other := by
  have apart := (List.nodup_flatMap.1 h.unique).2
  have symm : Std.Symm (Function.onFun List.Disjoint Table.identifiers) :=
    ⟨fun _ _ => List.Disjoint.symm⟩
  by_contra different
  exact apart.forall mem memOther different nameMem nameMemOther

theorem dataName_mem_declared_iff (h : library.Accepted) (mem : table ∈ library.tables)
    {entry : Table.Entry} (entryMem : entry ∈ table.entries) :
    table.dataName entry ∈ declared table ↔ table.metadata.useAliases = true := by
  have once := (List.nodup_flatMap.1 h.unique).1 table mem
  rw [← (perm_identifiers table).nodup_iff] at once
  have apart := (List.nodup_append.1 once).2.2
  have dataMem : table.dataName entry ∈ table.entries.map table.dataName :=
    List.mem_map_of_mem entryMem
  rw [declared_eq, List.mem_append, aliasNames]
  constructor
  · rintro (other | asAlias)
    · exact absurd rfl (apart _ other _ dataMem)
    · by_contra no
      rw [if_neg no] at asAlias
      cases asAlias
  · intro yes
    rw [if_pos yes]
    exact .inr dataMem

/-- No table declares the arrays of another one, so the aliases decide. -/
theorem dataName_mem_names_headerCode_iff (h : library.Accepted) (mem : table ∈ library.tables)
    (baseName : String) {entry : Table.Entry} (entryMem : entry ∈ table.entries) :
    table.dataName entry ∈ names (headerCode library baseName) ↔
      table.metadata.useAliases = true := by
  rw [← dataName_mem_declared_iff h mem entryMem, names_headerCode, List.mem_flatMap]
  constructor
  · rintro ⟨other, otherMem, declaredMem⟩
    have own : table.dataName entry ∈ table.identifiers :=
      (mem_declared_or_defined_iff table _).1 (.inr (by
        rw [defined_eq]
        exact List.mem_append_left _ (List.mem_map_of_mem entryMem)))
    have others : table.dataName entry ∈ other.identifiers :=
      (mem_declared_or_defined_iff other _).1 (.inl declaredMem)
    obtain rfl := eq_of_mem_identifiers h mem otherMem own others
    exact declaredMem
  · exact fun declaredMem => ⟨table, mem, declaredMem⟩

/-- What the header and the source say of the arrays of a table. -/
structure Linked (header source : List Line) (table : Table) : Prop where
  declaredHere : ∃ front back, header = front ++ (headerBlock table).code ++ back
  definedHere : ∃ front back, source = front ++ (sourceBlock table).code ++ back
  told : ∀ line ∈ (headerBlock table).code ++ (sourceBlock table).code, ∀ text,
    line.text? = some text → read text = line.reading
  agree : (arrays .declared (headerBlock table).code).Perm
    (arrays .exported (sourceBlock table).code)
  agreeInText : none ∉ (sourceBlock table).lines →
    (arraysRead .declared ((headerBlock table).lines.map some)).Perm
      (arraysRead .exported (sourceBlock table).lines)
  undeclared : ∀ d ∈ arrays .hidden (sourceBlock table).code, d.name ∉ names header
  entryDefined : ∀ entry ∈ table.entries,
    (∃ d : Definition, .definition d ∈ source ∧ d.declarator.name = table.dataName entry) ∧
      ∀ d : Definition, .definition d ∈ source → d.declarator.name = table.dataName entry →
        (d.isStatic = false ↔ table.metadata.useAliases = true)
  entryDeclared : ∀ entry ∈ table.entries,
    (∃ d, .declaration d ∈ header ∧ d.name = table.dataName entry) ↔
      table.metadata.useAliases = true

theorem entryArray_mem_declarations (table : Table) {entry : Table.Entry}
    (entryMem : entry ∈ table.entries) (yes : table.metadata.useAliases = true) :
    .declaration (entryDeclarator table entry) ∈ (headerBlock table).code := by
  simp only [headerBlock, HeaderBlock.code, yes, if_true]
  refine List.mem_append_right _ (List.mem_cons_of_mem _ (List.mem_map_of_mem ?_))
  exact List.mem_map_of_mem entryMem

theorem entryDefinition_mem_sourceBlock (table : Table) {entry : Table.Entry}
    (entryMem : entry ∈ table.entries) :
    .definition (entryDefinition table entry) ∈ (sourceBlock table).code := by
  simp only [sourceBlock, SourceBlock.code, List.append_assoc]
  exact List.mem_append_left _ (List.mem_map_of_mem (List.mem_map_of_mem entryMem))

/-- The header knows nothing of an array that is `static`. -/
theorem notMem_names_of_hidden (h : library.Accepted) (mem : table ∈ library.tables)
    (baseName : String) {d : Declarator}
    (hiddenMem : d ∈ arrays .hidden (sourceBlock table).code) :
    d.name ∉ names (headerCode library baseName) := by
  rw [arrays_sourceBlock] at hiddenMem
  cases no : table.metadata.useAliases with
  | true => simp [no] at hiddenMem
  | false =>
    simp only [no, Bool.false_eq_true, if_false, if_true, reduceCtorEq, List.append_nil] at hiddenMem
    obtain ⟨entry, entryMem, rfl⟩ := List.mem_map.1 hiddenMem
    exact mt (dataName_mem_names_headerCode_iff h mem baseName entryMem).1 (by simp [no])

theorem definition_mem_sourceCode (mem : table ∈ library.tables) (baseName : String)
    {entry : Table.Entry} (entryMem : entry ∈ table.entries) :
    .definition (entryDefinition table entry) ∈ sourceCode library baseName := by
  obtain ⟨front, back, split⟩ := exists_split_sourceCode mem baseName
  rw [split]
  exact List.mem_append_left _
    (List.mem_append_right _ (entryDefinition_mem_sourceBlock table entryMem))

/-- What is written for an entry stands in the source. -/
theorem line?_mem_source (mem : table ∈ library.tables) (baseName : String) {entry : Table.Entry}
    (entryMem : entry ∈ table.entries) :
    (entryDefinition table entry).line? ∈ source library baseName := by
  rw [← map_text?_sourceCode, ← text?_definition]
  exact List.mem_map_of_mem (definition_mem_sourceCode mem baseName entryMem)

/-- No other definition has the name of an entry's array. -/
theorem eq_of_definition_mem (h : library.Accepted) (mem : table ∈ library.tables)
    (baseName : String) {entry : Table.Entry} (entryMem : entry ∈ table.entries) {d : Definition}
    (dMem : .definition d ∈ sourceCode library baseName)
    (named : d.declarator.name = table.dataName entry) : d = entryDefinition table entry :=
  Line.definition.inj <|
    line_unique (nodup_sourceCode h baseName) dMem
      (definition_mem_sourceCode mem baseName entryMem) (congrArg some named) rfl

theorem exists_declaration_iff (h : library.Accepted) (mem : table ∈ library.tables)
    (baseName : String) {entry : Table.Entry} (entryMem : entry ∈ table.entries) :
    (∃ d, .declaration d ∈ headerCode library baseName ∧ d.name = table.dataName entry) ↔
      table.metadata.useAliases = true := by
  constructor
  · rintro ⟨d, dMem, named⟩
    have inNames := mem_names dMem (congrArg some named)
    exact (dataName_mem_names_headerCode_iff h mem baseName entryMem).1 inNames
  · intro yes
    obtain ⟨front, back, split⟩ := exists_split_headerCode mem baseName
    refine ⟨entryDeclarator table entry, ?_, rfl⟩
    rw [split]
    exact List.mem_append_left _
      (List.mem_append_right _ (entryArray_mem_declarations table entryMem yes))

theorem told_of_mem (h : table.WellNamed) {line : Line}
    (mem : line ∈ (headerBlock table).code ++ (sourceBlock table).code) {text : String}
    (written : line.text? = some text) : read text = line.reading := by
  refine read_of_text? ?_ written
  obtain mem | mem := List.mem_append.1 mem
  · exact worded_headerBlock h line mem
  · exact worded_sourceBlock h line mem

/-- The agreement of the two files, as their texts have it. -/
theorem perm_arraysRead (h : table.WellNamed) (writable : none ∉ (sourceBlock table).lines) :
    (arraysRead .declared ((headerBlock table).lines.map some)).Perm
      (arraysRead .exported (sourceBlock table).lines) := by
  rw [arraysRead_eq .declared (map_text?_headerBlock _) (worded_headerBlock h) (by simp),
    arraysRead_eq .exported (map_text?_sourceBlock _) (worded_sourceBlock h) writable]
  exact perm_exported table

theorem linked (h : library.Accepted) (mem : table ∈ library.tables) (baseName : String) :
    Linked (headerCode library baseName) (sourceCode library baseName) table where
  declaredHere := exists_split_headerCode mem baseName
  definedHere := exists_split_sourceCode mem baseName
  told _ lineMem _ written := told_of_mem (h.wellNamed mem) lineMem written
  agree := perm_exported table
  agreeInText := perm_arraysRead (h.wellNamed mem)
  undeclared _ hiddenMem := notMem_names_of_hidden h mem baseName hiddenMem
  entryDefined entry entryMem := by
    refine ⟨⟨_, definition_mem_sourceCode mem baseName entryMem, rfl⟩, fun d dMem named => ?_⟩
    rw [eq_of_definition_mem h mem baseName entryMem dMem named]
    simp [entryDefinition]
  entryDeclared _ entryMem := exists_declaration_iff h mem baseName entryMem

end Table

/-- **The header declares exactly the arrays that the source defines for other files.** -/
theorem linkage_agrees {library : Library} (h : library.Accepted) (baseName : String) :
    (ReadAs (header library baseName) (headerCode library baseName) ∧
      ReadAs (source library baseName) (sourceCode library baseName)) ∧
    ∀ table ∈ library.tables,
      Linked (headerCode library baseName) (sourceCode library baseName) table :=
  ⟨⟨readAs_header h baseName, readAs_source h baseName⟩, fun _ mem => linked h mem baseName⟩

/-- The aliases of the first table are declared, the static array of the second is not. -/
theorem linkage_agrees_sample :
    (∃ d, .declaration d ∈ headerCode .sample "b" ∧ d.name = "f_b_v") ∧
      "g_a_v" ∉ names (headerCode .sample "b") := by
  obtain ⟨-, linked⟩ := linkage_agrees Library.accepted_sample "b"
  have first := linked _ List.mem_cons_self
  have second := linked _ (List.mem_cons_of_mem _ List.mem_cons_self)
  have name : dataName "f" "b" "v" = "f_b_v" := by decide +kernel
  have name' : dataName "g" "a" "v" = "g_a_v" := by decide +kernel
  rw [← name, ← name']
  exact ⟨(first.entryDeclared _ (List.mem_cons_of_mem _ List.mem_cons_self)).2 rfl,
    second.undeclared _ (List.mem_filterMap.2 ⟨_, List.mem_cons_self, rfl⟩)⟩

end GlyphTables.Cpp
