import GlyphTables.Cpp.File
import GlyphTables.Proofs.Library.Assembly
import GlyphTables.Proofs.Table.Identifiers

/-!
# The include guard

The guard of a header is made of the target of the library and the name of the file. It is brought
to upper case like the constants, but no check of the library sees it. So it can be the name of
something else in the code, and it can fail to be a name at all.

* `exists_includeGuard_eq` : every guard ends in `_H_`;
* `includeGuard_ne_arrayName`, `includeGuard_ne_dataName`, `includeGuard_ne_symbol` : so it is not the
  name of an array, and not that of an enumeration or of a count;
* `guard_takes_enumerator` : but it can be the constant of an entry;
* `includeGuard_mem_identifiers_iff` : exactly when this happens;
* `isIdentifier_includeGuard` : a guard is an identifier unless the target starts with a digit;
* `header_guarded_iff` : so only the target decides whether a header is guarded at all.
-/

namespace GlyphTables.Cpp

/-! ## The shape of a guard -/

theorem exists_includeGuard_eq (target baseName : String) :
    ∃ front, includeGuard target baseName = front ++ "_H_" := by
  refine ⟨(sanitize (target ++ "_" ++ baseName)).toUpper, ?_⟩
  simp [includeGuard, sanitize, String.toUpper, ← String.toList_inj]

theorem getLast?_includeGuard (target baseName : String) :
    (includeGuard target baseName).toList.getLast? = some '_' := by
  obtain ⟨front, shape⟩ := exists_includeGuard_eq target baseName
  simp [shape]

theorem define_mem_header (library : Library) (baseName : String) :
    some ("#define " ++ includeGuard library.target baseName) ∈ header library baseName := by
  simp [header, headerLines, guardLines]

/-! ## Names that are no guard -/

/-- A table array ends with a letter, and a guard does not. -/
theorem includeGuard_ne_arrayName (target baseName : String) (table : Table) :
    includeGuard target baseName ≠ table.arrayName := by
  intro same
  have last := getLast?_includeGuard target baseName
  simp [same, Table.arrayName] at last

/-- A guard holds a capital letter and a data name none. -/
theorem includeGuard_ne_dataName (target baseName table entry array : String) :
    includeGuard target baseName ≠ dataName table entry array := by
  intro same
  obtain ⟨front, shape⟩ := exists_includeGuard_eq target baseName
  have mem : 'H' ∈ (dataName table entry array).toList := by
    rw [← same, shape]
    simp
  have small := isUpper_eq_false_of_mem_dataName mem
  revert small
  decide

/-- A constant ends as its word does. -/
theorem getLast?_symbol (stem : String) {word : String} {c : Char}
    (last : word.toUpper.toList.getLast? = some c) :
    (symbol stem word).toList.getLast? = some c := by
  rw [symbol_eq_append, String.toList_append, List.getLast?_append, last]
  rfl

/-- No constant is a guard whose word does not end in an underscore. -/
theorem includeGuard_ne_symbol (target baseName stem word : String)
    (ending : word.toUpper.toList.getLast?.any (· ≠ '_') = true) :
    includeGuard target baseName ≠ symbol stem word := by
  intro same
  have last := getLast?_includeGuard target baseName
  cases atEnd : word.toUpper.toList.getLast? with
  | none => simp [atEnd] at ending
  | some c =>
    rw [same, getLast?_symbol stem atEnd] at last
    obtain rfl := Option.some.inj last
    simp [atEnd] at ending

/-! ## Constants that are guards -/

theorem includeGuard_eq_symbol_iff (target baseName stem name : String) :
    includeGuard target baseName = symbol stem name ↔
      eqIgnoringCase (sanitize (target ++ "_" ++ baseName ++ "_H_")) (stem ++ "_" ++ name) = true := by
  unfold includeGuard symbol
  rw [toUpper_eq_toUpper_iff, eqIgnoringCase_iff]

/-- The name is `h_` or ends in `_h_`, in any letter case. -/
def EndsLikeGuard (name : String) : Prop :=
  name.toUpper = "H_" ∨ ∃ front, name.toUpper = front ++ "_H_"

/-- Where a text with an underscore ends in `_H_`, what follows the underscore ends like that too,
unless there is less than that of it. -/
theorem endsLikeGuard_of_append_eq {front stem name : List Char} (nonempty : name ≠ [])
    (same : stem ++ '_' :: name = front ++ ['_', 'H', '_']) :
    name = ['H', '_'] ∨ ∃ rest, name = rest ++ ['_', 'H', '_'] := by
  -- seen from the end, the name is as long as needed, or the underscore stands for a letter
  obtain ⟨back, rfl⟩ : ∃ back, name = back.reverse := ⟨name.reverse, by simp⟩
  have backwards := congrArg List.reverse same
  simp only [List.reverse_append, List.reverse_cons, List.reverse_reverse, List.reverse_nil,
    List.nil_append, List.append_assoc, List.cons_append] at backwards
  rcases back with _ | ⟨a, _ | ⟨b, _ | ⟨c, back⟩⟩⟩
  · simp at nonempty
  · simp at backwards
  · simp only [List.cons_append, List.nil_append, List.cons.injEq] at backwards
    obtain ⟨rfl, rfl, -⟩ := backwards
    exact .inl rfl
  · simp only [List.cons_append, List.cons.injEq] at backwards
    obtain ⟨rfl, rfl, rfl, -⟩ := backwards
    exact .inr ⟨back.reverse, by simp⟩

theorem endsLikeGuard_of_includeGuard_eq {target baseName stem name : String} (nonempty : name ≠ "")
    (same : includeGuard target baseName = symbol stem name) : EndsLikeGuard name := by
  obtain ⟨front, shape⟩ := exists_includeGuard_eq target baseName
  have lists := congrArg String.toList (same.symm.trans shape)
  rw [symbol_eq_append] at lists
  simp only [String.toList_append, List.append_assoc] at lists
  have filled : name.toUpper.toList ≠ [] := by
    simpa [String.toUpper] using nonempty
  rcases endsLikeGuard_of_append_eq filled lists with short | ⟨rest, long⟩
  · exact .inl (String.toList_inj.1 short)
  · refine .inr ⟨String.ofList rest, String.toList_inj.1 ?_⟩
    simpa using long

/-- The constant of the entry is the guard of the header. -/
structure Blanked (library : Library) (baseName : String) (table : Table) (entry : Table.Entry) :
    Prop where
  mem : entry ∈ table.entries
  enumerated : table.metadata.kind = .enumerated
  ending : EndsLikeGuard entry.name
  same : eqIgnoringCase (sanitize (library.target ++ "_" ++ baseName ++ "_H_"))
    (table.metadata.symbolPrefix ++ "_" ++ entry.name) = true

/-- A guard that is also an identifier of a table is so through one of its entries. -/
theorem blanked_of_mem {library : Library} {table : Table} (named : table.WellNamed)
    {baseName : String} (mem : includeGuard library.target baseName ∈ table.identifiers) :
    ∃ entry, Blanked library baseName table entry := by
  rcases (Table.mem_identifiers_iff table _).1 mem with same | ⟨word, wordMem, same⟩ | ⟨entry, -, same⟩
  · exact absurd same (includeGuard_ne_arrayName _ _ _)
  · unfold Table.words at wordMem
    cases kind : table.metadata.kind with
    | array => simp [kind] at wordMem
    | enumerated =>
      rw [kind] at wordMem
      simp only [List.cons_append, List.nil_append, List.mem_cons, List.mem_map] at wordMem
      rcases wordMem with rfl | rfl | ⟨entry, entryMem, rfl⟩
      · exact absurd same.symm (includeGuard_ne_symbol _ _ _ _ (by decide +kernel))
      · exact absurd same.symm (includeGuard_ne_symbol _ _ _ _ (by decide +kernel))
      · have nonempty : entry.name ≠ "" := by
          intro empty
          have := named.entryNames entry entryMem
          rw [empty] at this
          cases this
        exact ⟨entry, entryMem, kind, endsLikeGuard_of_includeGuard_eq nonempty same.symm,
          (includeGuard_eq_symbol_iff _ _ _ _).1 same.symm⟩
  · exact absurd same.symm (includeGuard_ne_dataName _ _ _ _ _)

theorem Blanked.includeGuard_eq {library : Library} {baseName : String} {table : Table}
    {entry : Table.Entry} (h : Blanked library baseName table entry) :
    includeGuard library.target baseName = table.symbol entry :=
  (includeGuard_eq_symbol_iff _ _ _ _).2 h.same

theorem Blanked.mem_identifiers {library : Library} {baseName : String} {table : Table}
    {entry : Table.Entry} (h : Blanked library baseName table entry) :
    includeGuard library.target baseName ∈ table.identifiers := by
  refine (Table.mem_identifiers_iff table _).2
    (.inr (.inl ⟨entry.name, ?_, h.includeGuard_eq.symm⟩))
  rw [Table.words, h.enumerated]
  exact List.mem_append_right _ (List.mem_map_of_mem h.mem)

/-- An entry whose constant is the guard of the header `b.h`, for the target `a`. -/
def clashEntry : Table.Entry :=
  ⟨"b_h_", ⟨"v", "int", [1], .decimal⟩⟩

def clashTable : Table :=
  ⟨⟨"t", "A", .enumerated, "int * const", false, []⟩, [clashEntry]⟩

def clash : Library where
  target := "a"
  scope := ""
  includes := []
  preamble := ""
  tables := [clashTable]

/-- No rule keeps the guard away from the constants: here the header takes `A_B_H_` for both. -/
theorem guard_takes_enumerator :
    clash.Accepted ∧ some "#define A_B_H_" ∈ header clash "b" ∧ some "  A_B_H_," ∈ header clash "b" ∧
      ¬ ∀ library : Library, library.Accepted → ∀ baseName, ∀ table ∈ library.tables,
        includeGuard library.target baseName ∉ table.identifiers := by
  have accepted : clash.Accepted := by decide +kernel
  have written : header clash "b" =
      ["#ifndef A_B_H_", "#define A_B_H_", "", "enum A_RESID \x7b", "  A_B_H_,", "  A_LAST",
        "\x7d; // enum A_RESID", "", "extern const int * const ts[A_LAST];", "",
        "#endif // A_B_H_"].map some := by cbv
  have guard : includeGuard clash.target "b" = "A_B_H_" := by cbv
  have taken : clashTable.identifiers = ["ts", "A_RESID", "A_LAST", "A_B_H_", "t_b_h__v"] := by cbv
  refine ⟨accepted, by simp [written], by simp [written], fun free => ?_⟩
  refine free clash accepted "b" clashTable (List.mem_singleton_self _) ?_
  simp [guard, taken]

/-- **The guard is none of the declared names, but for the constants of entries that end like a
guard.** -/
theorem includeGuard_mem_identifiers_iff {library : Library} (h : library.Accepted)
    (baseName : String) {table : Table} (mem : table ∈ library.tables) :
    some ("#define " ++ includeGuard library.target baseName) ∈ header library baseName ∧
      (includeGuard library.target baseName ∈ table.identifiers ↔
        ∃ entry, Blanked library baseName table entry) ∧
      (∀ entry, Blanked library baseName table entry →
        includeGuard library.target baseName = table.symbol entry) ∧
      includeGuard library.target baseName ≠ table.arrayName ∧
      includeGuard library.target baseName ≠ table.enumName ∧
      includeGuard library.target baseName ≠ table.countSymbol ∧
      ∀ entry, includeGuard library.target baseName ≠ table.dataName entry := by
  refine ⟨define_mem_header library baseName, ⟨blanked_of_mem (h.wellNamed mem), ?_⟩,
    fun entry blanked => blanked.includeGuard_eq, ?_, ?_, ?_, ?_⟩
  · rintro ⟨entry, blanked⟩
    exact blanked.mem_identifiers
  · exact includeGuard_ne_arrayName _ _ _
  · exact includeGuard_ne_symbol _ _ _ _ (by decide +kernel)
  · exact includeGuard_ne_symbol _ _ _ _ (by decide +kernel)
  · exact fun entry => includeGuard_ne_dataName _ _ _ _ _

/-- The same library in the files `b.h` and `c.h`: only the first takes a name twice. -/
theorem includeGuard_mem_identifiers_iff_clash :
    clash.Accepted ∧ clashTable ∈ clash.tables ∧
      includeGuard clash.target "b" ∈ clashTable.identifiers ∧
        includeGuard clash.target "c" ∉ clashTable.identifiers := by
  have accepted : clash.Accepted := by decide +kernel
  have mem : clashTable ∈ clash.tables := List.mem_singleton_self _
  obtain ⟨-, takes, -⟩ := includeGuard_mem_identifiers_iff accepted "b" mem
  obtain ⟨-, takes', -⟩ := includeGuard_mem_identifiers_iff accepted "c" mem
  refine ⟨accepted, mem, takes.2 ⟨clashEntry, ?_⟩, fun taken => ?_⟩
  · have ending : clashEntry.name.toUpper = "B" ++ "_H_" := by cbv
    have same : eqIgnoringCase (sanitize (clash.target ++ "_" ++ "b" ++ "_H_"))
        (clashTable.metadata.symbolPrefix ++ "_" ++ clashEntry.name) = true := by cbv
    exact ⟨List.mem_singleton_self clashEntry, rfl, .inr ⟨"B", ending⟩, same⟩
  · obtain ⟨entry, blanked⟩ := takes'.1 taken
    obtain rfl := List.mem_singleton.1 blanked.mem
    have different : eqIgnoringCase (sanitize (clash.target ++ "_" ++ "c" ++ "_H_"))
        (clashTable.metadata.symbolPrefix ++ "_" ++ clashEntry.name) = false := by cbv
    exact absurd (different.symm.trans blanked.same) Bool.false_ne_true

/-! ## The guard as an identifier -/

/-- What stands in a guard for a character of the target or of the file name. -/
def guardChar (c : Char) : Char :=
  (if c.isAlphanum then c else '_').toUpper

theorem toList_includeGuard (target baseName : String) :
    (includeGuard target baseName).toList =
      (target ++ "_" ++ baseName ++ "_H_").toList.map guardChar := by
  simp only [includeGuard, sanitize, String.toUpper, String.toList_map, List.map_map]
  rfl

/-- Sanitizing leaves no character that cannot stand in an identifier. -/
theorem isIdentifierTail_guardChar (c : Char) : isIdentifierTail (guardChar c) = true := by
  unfold guardChar
  split
  · rename_i kept
    rcases toUpper_eq_self_or_isAlpha c with same | letter
    · simp [same, isIdentifierTail, kept]
    · simp [isIdentifierTail, Char.isAlphanum, letter]
  · decide

theorem exists_digitChar_of_isDigit {c : Char} (digit : c.isDigit = true) :
    ∃ d < 10, Nat.digitChar d = c := by
  obtain ⟨low, high⟩ := Char.isDigit_iff_toNat.1 digit
  change 48 ≤ c.toNat at low
  change c.toNat ≤ 57 at high
  refine ⟨c.toNat - 48, by omega, Char.toNat_inj.1 ?_⟩
  rw [Nat.toNat_digitChar_of_lt_ten (by omega)]
  omega

/-- A digit is kept as it is, and no identifier starts with it. -/
theorem isIdentifierHead_guardChar (c : Char) : isIdentifierHead (guardChar c) = !c.isDigit := by
  by_cases digit : c.isDigit = true
  · obtain ⟨d, small, rfl⟩ := exists_digitChar_of_isDigit digit
    revert d
    decide
  by_cases letter : c.isAlpha = true
  · rcases toUpper_eq_self_or_isAlpha c with same | upper
    · simp [guardChar, Char.isAlphanum, letter, same, isIdentifierHead, digit]
    · simp [guardChar, Char.isAlphanum, letter, isIdentifierHead, upper, digit]
  · have underscore : guardChar c = '_' := by simp [guardChar, Char.isAlphanum, digit, letter]
    simp [underscore, isIdentifierHead, digit]

def startsWithDigit (text : String) : Bool :=
  text.toList.head?.any Char.isDigit

/-- Only a digit at the beginning keeps a guard from being an identifier. -/
theorem isIdentifier_includeGuard (target baseName : String) :
    isIdentifier (includeGuard target baseName) = !startsWithDigit target := by
  have tail : ∀ text : List Char, (text.map guardChar).all isIdentifierTail = true := by
    intro text
    simp [isIdentifierTail_guardChar]
  unfold isIdentifier startsWithDigit
  rw [toList_includeGuard]
  simp only [String.toList_append, List.append_assoc]
  -- a target without characters leaves the underscore in front
  cases target.toList with
  | nil =>
    change (isIdentifierHead (guardChar '_') && (List.map guardChar _).all isIdentifierTail) = _
    rw [tail, isIdentifierHead_guardChar]
    rfl
  | cons c rest =>
    change (isIdentifierHead (guardChar c) && (List.map guardChar _).all isIdentifierTail) = _
    rw [tail, isIdentifierHead_guardChar, Bool.and_true]
    rfl

/-- The library of the clash, for a target that starts with a digit. -/
def numbered : Library :=
  { clash with target := "3d" }

/-- A target that is not blank can still start with a digit, and then the header guards itself by
something that is no name. -/
theorem guard_starts_with_digit :
    numbered.Accepted ∧ some "#ifndef 3D_B_H_" ∈ header numbered "b" ∧
      some "#define 3D_B_H_" ∈ header numbered "b" ∧ isIdentifier "3D_B_H_" = false ∧
      ¬ ∀ library : Library, library.Accepted → ∀ baseName, baseName ≠ "" →
        isIdentifier (includeGuard library.target baseName) = true := by
  have accepted : numbered.Accepted := by decide +kernel
  have guard : includeGuard numbered.target "b" = "3D_B_H_" := by cbv
  have written : header numbered "b" =
      ["#ifndef 3D_B_H_", "#define 3D_B_H_", "", "enum A_RESID \x7b", "  A_B_H_,", "  A_LAST",
        "\x7d; // enum A_RESID", "", "extern const int * const ts[A_LAST];", "",
        "#endif // 3D_B_H_"].map some := by cbv
  have malformed : isIdentifier "3D_B_H_" = false := by decide +kernel
  refine ⟨accepted, by simp [written], by simp [written], malformed, fun formed => ?_⟩
  have contrary := formed numbered accepted "b" (by decide)
  rw [guard, malformed] at contrary
  cases contrary

/-- **A header is guarded by an identifier unless its target starts with a digit**, whatever the file
is called. -/
theorem header_guarded_iff (library : Library) (baseName : String) :
    (∃ inside, headerLines library baseName =
      preambleLines library.preamble ++
        ["#ifndef " ++ includeGuard library.target baseName,
          "#define " ++ includeGuard library.target baseName, ""] ++ inside ++
        ["#endif // " ++ includeGuard library.target baseName]) ∧
      (∀ c ∈ (includeGuard library.target baseName).toList, isIdentifierTail c = true) ∧
      (isIdentifier (includeGuard library.target baseName) = true ↔
        startsWithDigit library.target = false) := by
  refine ⟨?_, ?_, ?_⟩
  · refine ⟨includeLines library ++ openScope library.scope ++ headerBlocks library ++
      closeScope library.scope ++ [""], ?_⟩
    simp [headerLines, guardLines]
  · intro c mem
    rw [toList_includeGuard] at mem
    obtain ⟨d, -, rfl⟩ := List.mem_map.1 mem
    exact isIdentifierTail_guardChar d
  · simp [isIdentifier_includeGuard]

end GlyphTables.Cpp
