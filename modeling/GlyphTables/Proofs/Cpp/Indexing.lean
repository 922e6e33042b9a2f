import GlyphTables.Proofs.Cpp.Names

/-!
# Indexing the generated tables

The constants of a table are written by one loop and the rows of its array by another. The two are
read here by the rules of the language, and meet at the entries of the table.

* `constantsFrom_enumerators` : the constants of an enumeration count up from 0;
* `elements_rows` : the elements of an array are its rows;
* `exists_listed` : what the two files say of the array of a table;
* `reaches_iff` : following a row of the array leads to one definition only;
* `symbol_reaches_entry` : an index into the array of a table, be it a number or a constant, leads
  to the data of its entry.
-/

namespace GlyphTables.Cpp

/-! ## Reading constants -/

/-- The enumeration constants with their values, where the next one gets the value `next`. The
first of an enumeration is 0, and each is one more than the one before it. -/
def constantsFrom (next : Nat) : List Line → List (String × Nat)
  | [] => []
  | .openEnumeration _ :: rest => constantsFrom 0 rest
  | .enumerator name :: rest => (name, next) :: constantsFrom (next + 1) rest
  | .lastEnumerator name :: rest => (name, next) :: constantsFrom (next + 1) rest
  | _ :: rest => constantsFrom next rest

/-- Code gives the constant `name` the one value `value`. -/
def IsConstant (code : List Line) (name : String) (value : Nat) : Prop :=
  ∀ v, (name, v) ∈ constantsFrom 0 code ↔ v = value

theorem constantsFrom_append (next : Nat) (a b : List Line) :
    ∃ next', constantsFrom next (a ++ b) = constantsFrom next a ++ constantsFrom next' b := by
  induction a generalizing next with
  | nil => exact ⟨next, rfl⟩
  | cons line a ih =>
    cases line with
    | openEnumeration name =>
      obtain ⟨next', h⟩ := ih 0
      exact ⟨next', h⟩
    | enumerator name =>
      obtain ⟨next', h⟩ := ih (next + 1)
      exact ⟨next', congrArg (List.cons _) h⟩
    | lastEnumerator name =>
      obtain ⟨next', h⟩ := ih (next + 1)
      exact ⟨next', congrArg (List.cons _) h⟩
    | _ =>
      obtain ⟨next', h⟩ := ih next
      exact ⟨next', h⟩

theorem constantsFrom_enumerators (next : Nat) (enumerators : List String) (rest : List Line) :
    constantsFrom next (enumerators.map .enumerator ++ rest) =
      enumerators.zipIdx next ++ constantsFrom (next + enumerators.length) rest := by
  induction enumerators generalizing next with
  | nil => rfl
  | cons name enumerators ih =>
    rw [List.map_cons, List.cons_append, constantsFrom, ih, List.zipIdx_cons, List.length_cons,
      List.cons_append, Nat.add_assoc, Nat.add_comm 1]

theorem constantsFrom_enumeration (next : Nat) (e : Enumeration) (rest : List Line) :
    ∃ next', constantsFrom next (e.code ++ rest) =
      e.enumerators.zipIdx ++ (e.count, e.enumerators.length) :: constantsFrom next' rest := by
  refine ⟨e.enumerators.length + 1, ?_⟩
  simp only [Enumeration.code, List.append_assoc, List.cons_append, List.nil_append,
    constantsFrom, constantsFrom_enumerators, Nat.zero_add]

/-- A constant is a name that the code introduces. -/
theorem sublist_names (next : Nat) (code : List Line) :
    ((constantsFrom next code).map Prod.fst).Sublist (names code) := by
  induction code generalizing next with
  | nil => exact .slnil
  | cons line code ih =>
    rw [names_cons]
    cases line with
    | openEnumeration name => exact (ih 0).cons _
    | enumerator name => exact (ih (next + 1)).cons_cons _
    | lastEnumerator name => exact (ih (next + 1)).cons_cons _
    | _ => exact (ih next).trans (List.sublist_append_right _ _)

/-- Where no name is introduced twice, a constant has no second value. -/
theorem isConstant_of_mem {code : List Line} (once : (names code).Nodup) {name : String}
    {value : Nat} (mem : (name, value) ∈ constantsFrom 0 code) : IsConstant code name value := by
  have keys := once.sublist (sublist_names 0 code)
  intro v
  constructor
  · intro mem'
    exact congrArg Prod.snd (List.inj_on_of_nodup_map keys mem' mem rfl)
  · rintro rfl
    exact mem

/-! ## Reading arrays -/

/-- The elements of an array up to its end. -/
def elements : List Line → List String
  | [] => []
  | .element name :: rest => name :: elements rest
  | .closeArray :: _ => []
  | _ :: rest => elements rest

/-- After `before`, code starts the array `d` with the elements `rows`. -/
def ArrayAt (code before : List Line) (d : Declarator) (rows : List String) : Prop :=
  ∃ rest, code = before ++ .openArray d :: rest ∧ elements rest = rows

/-- The element `index` of `array` names an array, defined above, of the numbers `values`. -/
def Reaches (code : List Line) (array : String) (index : Nat) (values : List Int) : Prop :=
  ∃ before d rows data, ArrayAt code before d rows ∧ d.name = array ∧
    rows[index]? = some data.declarator.name ∧ .definition data ∈ before ∧ data.values = values

theorem elements_rows (rows : List Row) (rest : List Line) :
    elements (rows.flatMap Row.code ++ .closeArray :: rest) = rows.map Row.name := by
  induction rows with
  | nil => rfl
  | cons row rows ih =>
    rw [List.flatMap_cons, List.append_assoc, List.map_cons, ← ih]
    unfold Row.code
    cases row.label <;> rfl

/-! ## The two files about a table -/

/-- What the two files say of the array of a table, which starts after `before` in the source. -/
structure Listed (header source : List Line) (table : Table) (before : List Line) (d : Declarator)
    (rows : List String) : Prop where
  arrayName : d.name = table.arrayName
  declared : .declaration d ∈ header ∧ (names header).count d.name = 1
  defined : ArrayAt source before d rows ∧ (names source).count d.name = 1
  countBound : table.metadata.kind = .enumerated → d.bound = table.countSymbol
  literalBound : table.metadata.kind = .array →
    d.bound = Literal.natural rows.length ∧ d.bound.toNat? = some rows.length
  length : rows.length = table.entries.length
  row : ∀ (i : Nat) (entry : Table.Entry), table.entries[i]? = some entry →
    ∃ data : Definition, rows[i]? = some data.declarator.name ∧ .definition data ∈ before ∧
      (names source).count data.declarator.name = 1 ∧ data.values = entry.array.values

/-- The constants, rows and data of a table fit together. -/
structure Indexed (header source : List Line) (table : Table) : Prop where
  symbols : table.metadata.kind = .enumerated → ∀ (i : Nat) (entry : Table.Entry),
    table.entries[i]? = some entry → IsConstant header (table.symbol entry) i
  count : table.metadata.kind = .enumerated →
    IsConstant header table.countSymbol table.entries.length
  listed : ∃ before d rows, Listed header source table before d rows
  reaches : ∀ (i : Nat) (entry : Table.Entry), table.entries[i]? = some entry →
    ∀ values, Reaches source table.arrayName i values ↔ values = entry.array.values
  reachesBySymbol : table.metadata.kind = .enumerated → ∀ entry ∈ table.entries,
    ∀ i, IsConstant header (table.symbol entry) i →
      ∀ values, Reaches source table.arrayName i values ↔ values = entry.array.values

theorem toNat?_natural (n : Nat) : (Literal.natural n).toNat? = some n := by
  rw [Literal.natural, ← Nat.repr_eq_ofList_toDigits, Nat.toNat?_repr]

section Table

variable {library : Library} {table : Table}

theorem code_headerBlock (kind : table.metadata.kind = .enumerated) :
    ∃ rest, (headerBlock table).code =
      (Enumeration.mk table.enumName (table.entries.map table.symbol) table.countSymbol).code ++
        rest := by
  rw [HeaderBlock.code, headerBlock, enumeration?, kind]
  simp only [List.append_assoc]
  exact ⟨_, rfl⟩

/-- The constants of an enumerated table stand in the header. -/
theorem mem_constantsFrom (mem : table ∈ library.tables) (baseName : String)
    (kind : table.metadata.kind = .enumerated) {constant : String × Nat}
    (h : constant ∈ (table.entries.map table.symbol).zipIdx ∨
      constant = (table.countSymbol, table.entries.length)) :
    constant ∈ constantsFrom 0 (headerCode library baseName) := by
  obtain ⟨front, back, split⟩ := exists_split_headerCode mem baseName
  obtain ⟨rest, block⟩ := code_headerBlock kind
  rw [block, List.append_assoc, List.append_assoc] at split
  obtain ⟨next, before⟩ := constantsFrom_append 0 front (_ ++ (rest ++ back))
  obtain ⟨next', after⟩ := constantsFrom_enumeration next _ (rest ++ back)
  rw [split, before, after, List.length_map]
  refine List.mem_append_right _ ?_
  obtain h | rfl := h
  · exact List.mem_append_left _ h
  · exact List.mem_append_right _ List.mem_cons_self

/-- The constant of an entry has the place of the entry as its value. -/
theorem isConstant_symbol (h : library.Accepted) (mem : table ∈ library.tables)
    (baseName : String) (kind : table.metadata.kind = .enumerated) {i : Nat} {entry : Table.Entry}
    (place : table.entries[i]? = some entry) :
    IsConstant (headerCode library baseName) (table.symbol entry) i := by
  refine isConstant_of_mem (nodup_headerCode h baseName)
    (mem_constantsFrom mem baseName kind (.inl ?_))
  rw [List.mem_zipIdx_iff_getElem?, List.getElem?_map, place]
  rfl

/-- The last constant counts the entries. -/
theorem isConstant_countSymbol (h : library.Accepted) (mem : table ∈ library.tables)
    (baseName : String) (kind : table.metadata.kind = .enumerated) :
    IsConstant (headerCode library baseName) table.countSymbol table.entries.length :=
  isConstant_of_mem (nodup_headerCode h baseName)
    (mem_constantsFrom mem baseName kind (.inr rfl))

theorem declaration_mem_headerCode (mem : table ∈ library.tables) (baseName : String) :
    .declaration (tableDeclarator table) ∈ headerCode library baseName := by
  obtain ⟨front, back, split⟩ := exists_split_headerCode mem baseName
  rw [split]
  simp [HeaderBlock.code, headerBlock]

/-- The array of a table comes after the data of its entries. -/
theorem exists_arrayAt (mem : table ∈ library.tables) (baseName : String) :
    ∃ before, ArrayAt (sourceCode library baseName) before (tableDeclarator table)
        (table.entries.map table.dataName) ∧
      ∀ entry ∈ table.entries, .definition (entryDefinition table entry) ∈ before := by
  obtain ⟨front, back, split⟩ := exists_split_sourceCode mem baseName
  let data := table.entries.map (entryDefinition table)
  let rows := table.entries.map (entryRow table)
  refine ⟨front ++ data.map .definition ++ [.plain ""],
    ⟨rows.flatMap Row.code ++ .closeArray :: back, ?_, ?_⟩, ?_⟩
  · rw [split, SourceBlock.code, sourceBlock]
    simp only [List.append_assoc, List.cons_append, List.nil_append]
    rfl
  · rw [elements_rows, List.map_map]
    rfl
  · intro entry entryMem
    refine List.mem_append_left _ (List.mem_append_right _ (List.mem_map_of_mem ?_))
    exact List.mem_map_of_mem entryMem

theorem exists_listed (h : library.Accepted) (mem : table ∈ library.tables) (baseName : String) :
    ∃ before d rows,
      Listed (headerCode library baseName) (sourceCode library baseName) table before d rows := by
  obtain ⟨before, start, above⟩ := exists_arrayAt mem baseName
  have declared := declaration_mem_headerCode mem baseName
  have once := nodup_sourceCode h baseName
  have ⟨rest, split, _⟩ := start
  refine ⟨before, tableDeclarator table, table.entries.map table.dataName, ?_⟩
  constructor
  case arrayName => rfl
  case declared =>
    exact ⟨declared, count_names (nodup_headerCode h baseName) declared rfl⟩
  case defined =>
    have opened : .openArray (tableDeclarator table) ∈ sourceCode library baseName := by
      simp [split]
    exact ⟨start, count_names once opened rfl⟩
  case countBound =>
    intro kind
    simp [tableDeclarator, countExpression, kind]
  case literalBound =>
    intro kind
    simp [tableDeclarator, countExpression, kind, toNat?_natural]
  case length => exact List.length_map _
  case row =>
    intro i entry place
    have here := above entry (List.mem_of_getElem? place)
    have defined : .definition (entryDefinition table entry) ∈ sourceCode library baseName := by
      rw [split]
      exact List.mem_append_left _ here
    refine ⟨entryDefinition table entry, ?_, here, count_names once defined rfl, rfl⟩
    rw [List.getElem?_map, place]
    rfl

end Table

theorem reaches_iff {source before : List Line} {d : Declarator} {rows : List String}
    (once : (names source).Nodup) (start : ArrayAt source before d rows) {i : Nat}
    {data : Definition} (row : rows[i]? = some data.declarator.name)
    (above : .definition data ∈ before) (values : List Int) :
    Reaches source d.name i values ↔ values = data.values := by
  constructor
  · rintro ⟨before', d', rows', data', ⟨rest', split', rfl⟩, same, row', above', rfl⟩
    obtain ⟨rest, split, rfl⟩ := start
    obtain ⟨rfl, -, rfl⟩ := split_unique once split split' rfl (congrArg some same)
    have name : data'.declarator.name = data.declarator.name :=
      Option.some.inj (row'.symm.trans row)
    have inSource : ∀ line ∈ before, line ∈ source := by
      intro line lineMem
      rw [split]
      exact List.mem_append_left _ lineMem
    have line : Line.definition data' = .definition data :=
      line_unique once (inSource _ above') (inSource _ above) rfl (congrArg some name.symm)
    injection line with definition
    rw [definition]
  · rintro rfl
    exact ⟨before, d, rows, data, start, rfl, row, above, rfl⟩

/-- **Indexing the array of a table with the symbol of an entry leads to the data of the entry.** -/
theorem symbol_reaches_entry {library : Library} (h : library.Accepted) (baseName : String) :
    (ReadAs (header library baseName) (headerCode library baseName) ∧
      ReadAs (source library baseName) (sourceCode library baseName)) ∧
    ∀ table ∈ library.tables,
      Indexed (headerCode library baseName) (sourceCode library baseName) table := by
  refine ⟨⟨readAs_header h baseName, readAs_source h baseName⟩, ?_⟩
  intro table mem
  obtain ⟨before, d, rows, listed⟩ := exists_listed h mem baseName
  have reaches : ∀ (i : Nat) (entry : Table.Entry), table.entries[i]? = some entry →
      ∀ values, Reaches (sourceCode library baseName) table.arrayName i values ↔
        values = entry.array.values := by
    intro i entry place values
    obtain ⟨data, row, above, -, same⟩ := listed.row i entry place
    rw [← listed.arrayName, ← same]
    exact reaches_iff (nodup_sourceCode h baseName) listed.defined.1 row above values
  refine ⟨fun kind i entry => isConstant_symbol h mem baseName kind,
    isConstant_countSymbol h mem baseName, ⟨before, d, rows, listed⟩, reaches, ?_⟩
  intro kind entry entryMem i value values
  obtain ⟨place, atPlace⟩ := List.mem_iff_getElem?.1 entryMem
  -- The constant has one value only, so `i` is the place of the entry.
  have here := (value place).1 ((isConstant_symbol h mem baseName kind atPlace place).2 rfl)
  exact reaches i entry (here ▸ atPlace) values

/-- The constant of the second entry leads to its number. -/
theorem symbol_reaches_entry_sample :
    IsConstant (headerCode .sample "b") "F_B" 1 ∧ IsConstant (headerCode .sample "b") "F_LAST" 2 ∧
      ∀ values, Reaches (sourceCode .sample "b") "fs" 1 values ↔ values = [3] := by
  have indexed := (symbol_reaches_entry Library.accepted_sample "b").2 _ List.mem_cons_self
  have entry : IsConstant _ (symbol "F" "b") 1 := indexed.symbols rfl 1 _ rfl
  have last : IsConstant _ (symbol "F" "LAST") 2 := indexed.count rfl
  rw [show symbol "F" "b" = "F_B" by decide +kernel] at entry
  rw [show symbol "F" "LAST" = "F_LAST" by decide +kernel] at last
  exact ⟨entry, last, indexed.reaches 1 _ rfl⟩

end GlyphTables.Cpp
