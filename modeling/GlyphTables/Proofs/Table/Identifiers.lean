import GlyphTables.Proofs.Table.WellNamed

/-!
# When generated identifiers are the same

The identifiers of a table are its array name, the constants of its enumeration and the names of its
data arrays. Constants hold no small letter and data names no capital one, an array name ends in a
small one, and an underscore follows the table's own part of every other name.

* `symbol_ne_dataName` : a constant and a data name can be the same only if no letter is in them;
* `not_independent_of_symbol_eq`, `not_independent_of_dataName_eq`,
  `continues_of_arrayName_eq_dataName` : what the same identifier in two tables says of the names of
  the tables;
* `nodup_identifiers` : the identifiers of one table;
* `disjoint_identifiers` : the identifiers of two tables.
-/

namespace GlyphTables

/-! ## Letters -/

/-- A letter is in the text, in either case. -/
def HasLetter (text : String) : Prop :=
  ∃ c ∈ text.toList, c.isAlpha = true

theorem isLower_eq_false_of_mem_symbol {stem name : String} {c : Char}
    (mem : c ∈ (symbol stem name).toList) : c.isLower = false := by
  rw [symbol, String.toUpper, String.toList_map] at mem
  obtain ⟨d, -, rfl⟩ := List.mem_map.1 mem
  exact d.isLower_toUpper_eq_false

theorem isUpper_eq_false_of_mem_dataName {table entry array : String} {c : Char}
    (mem : c ∈ (dataName table entry array).toList) : c.isUpper = false := by
  rw [dataName, String.toLower, String.toList_map] at mem
  obtain ⟨d, -, rfl⟩ := List.mem_map.1 mem
  exact d.isUpper_toLower_eq_false

theorem hasLetter_symbol_iff (stem name : String) :
    HasLetter (symbol stem name) ↔ HasLetter stem ∨ HasLetter name := by
  have underscore : '_'.isAlpha = false := rfl
  simp [HasLetter, symbol, String.toUpper, underscore, or_and_right, exists_or]

theorem hasLetter_dataName {table : String} (h : HasLetter table) (entry array : String) :
    HasLetter (dataName table entry array) := by
  obtain ⟨c, mem, letter⟩ := h
  refine ⟨c.toLower, ?_, by rwa [Char.isAlpha_toLower_eq_isAlpha]⟩
  rw [dataName, String.toLower, String.toList_map]
  exact List.mem_map_of_mem (by simp [mem])

/-- What is both a constant and a data name has no letter. -/
theorem not_hasLetter_of_symbol_eq_dataName {stem name table entry array : String}
    (same : symbol stem name = dataName table entry array) : ¬ HasLetter (symbol stem name) := by
  rintro ⟨c, mem, letter⟩
  have small := isLower_eq_false_of_mem_symbol mem
  have capital := isUpper_eq_false_of_mem_dataName (same ▸ mem)
  rw [Char.isAlpha, small, capital] at letter
  cases letter

/-- A letter in either stem tells the uppercase symbol from the lowercase name. -/
theorem symbol_ne_dataName {stem table : String} (letters : HasLetter stem ∨ HasLetter table)
    (name entry array : String) : symbol stem name ≠ dataName table entry array := by
  intro same
  refine not_hasLetter_of_symbol_eq_dataName same ?_
  obtain letter | letter := letters
  · exact (hasLetter_symbol_iff stem name).2 (.inl letter)
  · exact same ▸ hasLetter_dataName letter entry array

/-! ## Names that go on from others -/

/-- `b` starts with `a` and an underscore, up to letter case. -/
def Continues (a b : String) : Prop :=
  ∃ rest, b.toLower = a.toLower ++ "_" ++ rest

theorem continues_iff (a b : String) :
    Continues a b ↔ (a.toLower ++ "_").toList <+: b.toLower.toList := by
  constructor
  · rintro ⟨rest, same⟩
    exact ⟨rest.toList, by rw [same, ← String.toList_append]⟩
  · rintro ⟨rest, same⟩
    refine ⟨String.ofList rest, ?_⟩
    simpa [← String.toList_inj] using same.symm

instance (a b : String) : Decidable (Continues a b) :=
  decidable_of_iff _ (continues_iff a b).symm

/-- Neither name is the other or goes on from it. -/
structure Independent (a b : String) : Prop where
  different : eqIgnoringCase a b = false
  notAfter : ¬ Continues a b
  notBefore : ¬ Continues b a

instance (a b : String) : Decidable (Independent a b) :=
  decidable_of_iff (eqIgnoringCase a b = false ∧ ¬ Continues a b ∧ ¬ Continues b a)
    ⟨fun h => ⟨h.1, h.2.1, h.2.2⟩, fun h => ⟨h.different, h.notAfter, h.notBefore⟩⟩

theorem Independent.symm {a b : String} (h : Independent a b) : Independent b a :=
  ⟨eqIgnoringCase_comm a b ▸ h.different, h.notBefore, h.notAfter⟩

theorem not_continues_self (a : String) : ¬ Continues a a := by
  rintro ⟨rest, same⟩
  have lengths := congrArg String.length same
  have underscore : "_".length = 1 := rfl
  rw [String.length_append, String.length_append, underscore] at lengths
  omega

/-- Where two texts with an underscore are the same, one goes on from the other up to its
underscore. -/
theorem join_eq_join {u v x y : String} (h : u ++ "_" ++ x = v ++ "_" ++ y) :
    u = v ∨ (∃ rest, v = u ++ "_" ++ rest) ∨ ∃ rest, u = v ++ "_" ++ rest := by
  have key : ∀ {u v x y : String} {surplus : List Char}, v.toList = u.toList ++ surplus →
      '_' :: x.toList = surplus ++ '_' :: y.toList → u = v ∨ ∃ rest, v = u ++ "_" ++ rest := by
    intro u v x y surplus longer tails
    cases surplus with
    | nil => exact .inl (String.toList_inj.1 (by simpa using longer.symm))
    | cons c surplus =>
      obtain ⟨rfl, -⟩ := List.cons.inj tails
      exact .inr ⟨String.ofList surplus, String.toList_inj.1 (by simpa using longer)⟩
  have lists := congrArg String.toList h
  simp only [String.toList_append, List.append_assoc] at lists
  obtain ⟨surplus, longer, tails⟩ | ⟨surplus, longer, tails⟩ := List.append_eq_append_iff.1 lists
  · exact (key longer tails).imp_right .inl
  · obtain same | rest := key longer tails
    · exact .inl same.symm
    · exact .inr (.inr rest)

theorem not_independent_of_join_eq_join {a b x y : String}
    (h : a.toLower ++ "_" ++ x = b.toLower ++ "_" ++ y) : ¬ Independent a b := by
  intro apart
  obtain same | after | before := join_eq_join h
  · exact absurd apart.different (by simp [eqIgnoringCase, same])
  · exact apart.notAfter after
  · exact apart.notBefore before

/-- Equal symbols have stems of which one goes on where the other ends. -/
theorem not_independent_of_symbol_eq {a b x y : String} (h : symbol a x = symbol b y) :
    ¬ Independent a b := by
  have lower := congrArg String.toLower h
  have underscore : "_".toLower = "_" := by decide +kernel
  simp only [symbol_eq_append, toLower_append, toLower_toUpper, underscore] at lower
  exact not_independent_of_join_eq_join lower

theorem dataName_eq_join (table entry array : String) :
    dataName table entry array =
      table.toLower ++ "_" ++ (entry.toLower ++ "_" ++ array.toLower) := by
  simp only [dataName_eq_append, String.append_assoc]

theorem not_independent_of_dataName_eq {a b x y v w : String}
    (h : dataName a x v = dataName b y w) : ¬ Independent a b := by
  rw [dataName_eq_join, dataName_eq_join] at h
  exact not_independent_of_join_eq_join h

namespace Table

/-! ## Array names -/

/-- The name of an array ends with a lowercase letter. -/
theorem arrayName_ne_symbol (table : Table) (stem name : String) :
    table.arrayName ≠ GlyphTables.symbol stem name := by
  intro same
  have mem : 's' ∈ (GlyphTables.symbol stem name).toList := by
    rw [← same, arrayName]
    simp
  exact absurd (isLower_eq_false_of_mem_symbol mem) (by decide)

/-- An array name that is a data name goes on from the other table's name: of its letters only the
last can come from the end of the data name. -/
theorem continues_of_arrayName_eq_dataName {table : Table} {other entry array : String}
    (filled : array ≠ "") (same : table.arrayName = GlyphTables.dataName other entry array) :
    Continues other table.name := by
  have filled : array.toLower.toList ≠ [] := by
    simpa [String.toLower] using filled
  obtain ⟨front, last, split⟩ := List.eq_nil_or_concat _ |>.resolve_left filled
  rw [List.concat_eq_append] at split
  have lists := congrArg String.toList same
  simp only [arrayName, dataName_eq_join, String.toList_append, split, ← List.append_assoc] at lists
  have name : table.name =
      other.toLower ++ "_" ++ (entry.toLower ++ "_" ++ String.ofList front) := by
    rw [← String.toList_inj]
    simpa [Table.name] using List.append_inj_left' lists rfl
  have idem : other.toLower.toLower = other.toLower := by
    simp [String.toLower, ← String.toList_inj]
  have underscore : "_".toLower = "_" := by decide +kernel
  rw [name]
  exact ⟨_, by rw [toLower_append, toLower_append, idem, underscore]⟩

/-! ## One table -/

/-- The words that become constants in the enumeration of a table. -/
def words (table : Table) : List String :=
  match table.metadata.kind with
  | .enumerated => [enumWord, countWord] ++ table.entries.map Entry.name
  | .array => []

theorem identifiers_eq (table : Table) :
    table.identifiers =
      table.arrayName :: table.words.map table.metadata.symbol ++
        table.entries.map table.dataName := by
  unfold identifiers words enumIdentifiers
  cases table.metadata.kind <;> simp [enumName, countSymbol, symbol]

theorem mem_identifiers_iff (table : Table) (name : String) :
    name ∈ table.identifiers ↔ name = table.arrayName ∨
      (∃ word ∈ table.words, table.metadata.symbol word = name) ∨
        ∃ entry ∈ table.entries, table.dataName entry = name := by
  rw [identifiers_eq, List.cons_append, List.mem_cons, List.mem_append, List.mem_map, List.mem_map]

theorem WellNamed.nodup_constants {table : Table} (h : table.WellNamed) :
    (table.words.map table.metadata.symbol).Nodup := by
  unfold words
  cases kind : table.metadata.kind with
  | array => exact List.nodup_nil
  | enumerated =>
    have differ : table.enumName ≠ table.countSymbol := by
      have words : eqIgnoringCase enumWord countWord = false := by decide +kernel
      exact mt (symbol_eq_symbol_iff _ _ _).1 (ne_true_of_eq_false words)
    have symbols := h.distinctSymbols
    have free := h.unreserved kind
    have enumFree : table.enumName ∉ table.entries.map table.symbol := by
      intro mem
      obtain ⟨entry, entryMem, same⟩ := List.mem_map.1 mem
      exact (free entry entryMem).2 same
    have countFree : table.countSymbol ∉ table.entries.map table.symbol := by
      intro mem
      obtain ⟨entry, entryMem, same⟩ := List.mem_map.1 mem
      exact (free entry entryMem).1 same
    simp only [List.map_append, List.map_cons, List.map_nil, List.map_map]
    refine List.nodup_cons.2 ⟨?_, List.nodup_cons.2 ⟨countFree, symbols⟩⟩
    intro mem
    obtain same | mem := List.mem_cons.1 mem
    · exact differ same
    · exact enumFree mem

theorem WellNamed.array_name_ne_empty {table : Table} (h : table.WellNamed) {entry : Entry}
    (mem : entry ∈ table.entries) : entry.array.name ≠ "" := by
  intro empty
  have := h.arrayNames entry mem
  rw [empty] at this
  cases this

theorem WellNamed.arrayName_ne_dataName {table : Table} (h : table.WellNamed) {entry : Entry}
    (mem : entry ∈ table.entries) : table.arrayName ≠ table.dataName entry :=
  fun same => not_continues_self _
    (continues_of_arrayName_eq_dataName (h.array_name_ne_empty mem) same)

theorem WellNamed.nodup_identifiers {table : Table} (h : table.WellNamed)
    (letters : HasLetter table.metadata.symbolPrefix ∨ HasLetter table.name) :
    table.identifiers.Nodup := by
  rw [identifiers_eq, List.cons_append, List.nodup_cons]
  constructor
  · rw [List.mem_append, List.mem_map, List.mem_map]
    rintro (⟨word, -, same⟩ | ⟨entry, mem, same⟩)
    · exact table.arrayName_ne_symbol _ _ same.symm
    · exact h.arrayName_ne_dataName mem same.symm
  · refine List.nodup_append.2 ⟨h.nodup_constants, h.distinctDataNames, ?_⟩
    rintro _ constant _ data rfl
    obtain ⟨word, -, same⟩ := List.mem_map.1 constant
    obtain ⟨entry, -, same'⟩ := List.mem_map.1 data
    exact symbol_ne_dataName letters _ _ _ (same.trans same'.symm)

/-! ## Two tables -/

/-- Tables whose own names keep their identifiers apart. -/
structure KeptApart (a b : Table) : Prop where
  names : Independent a.name b.name
  prefixes : Independent a.metadata.symbolPrefix b.metadata.symbolPrefix
  letters : (HasLetter a.metadata.symbolPrefix ∧ HasLetter b.metadata.symbolPrefix) ∨
    (HasLetter a.name ∧ HasLetter b.name)

theorem KeptApart.symm {a b : Table} (h : KeptApart a b) : KeptApart b a :=
  ⟨h.names.symm, h.prefixes.symm, h.letters.imp And.symm And.symm⟩

theorem KeptApart.arrayName_not_mem {a b : Table} (h : KeptApart a b) (hb : b.WellNamed) :
    a.arrayName ∉ b.identifiers := by
  rw [mem_identifiers_iff]
  rintro (same | ⟨word, -, same⟩ | ⟨entry, mem, same⟩)
  · have names : a.name = b.name := by
      simpa [arrayName, Table.name] using same
    exact absurd h.names.different (by simp [names, eqIgnoringCase])
  · exact a.arrayName_ne_symbol _ _ same.symm
  · have filled := hb.array_name_ne_empty mem
    exact h.names.notBefore (continues_of_arrayName_eq_dataName filled same.symm)

theorem KeptApart.symbol_ne_dataName {a b : Table} (h : KeptApart a b) (word : String)
    (entry : Entry) : a.metadata.symbol word ≠ b.dataName entry :=
  GlyphTables.symbol_ne_dataName (h.letters.imp And.left And.right) _ _ _

/-- Tables that are kept apart have no identifier in common. -/
theorem KeptApart.disjoint_identifiers {a b : Table} (h : KeptApart a b) (ha : a.WellNamed)
    (hb : b.WellNamed) : a.identifiers.Disjoint b.identifiers := by
  intro name inA inB
  obtain rfl | inA := (mem_identifiers_iff a name).1 inA
  · exact h.arrayName_not_mem hb inB
  obtain rfl | inB := (mem_identifiers_iff b name).1 inB
  · exact h.symm.arrayName_not_mem ha ((mem_identifiers_iff a _).2 (.inr inA))
  obtain ⟨word, -, rfl⟩ | ⟨entry, -, rfl⟩ := inA
  · obtain ⟨word', -, same⟩ | ⟨entry', -, same⟩ := inB
    · exact not_independent_of_symbol_eq same.symm h.prefixes
    · exact h.symbol_ne_dataName word entry' same.symm
  · obtain ⟨word', -, same⟩ | ⟨entry', -, same⟩ := inB
    · exact h.symm.symbol_ne_dataName word' entry same
    · exact not_independent_of_dataName_eq same.symm h.names

end Table

end GlyphTables
