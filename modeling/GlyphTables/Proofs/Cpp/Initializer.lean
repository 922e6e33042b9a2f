import GlyphTables.Proofs.Cpp.Cut
import GlyphTables.Proofs.Cpp.Linkage
import GlyphTables.Proofs.Cpp.Writing

/-!
# Reading definitions back

The line that is written for an entry holds the numbers of the entry between its braces, and how many
they are in its brackets.

* `bound?_of_line?` : the number in the last brackets;
* `writeData_eq_put_iff` : what is written for an entry is the line of its definition;
* `definition_reads_back` : so the line of an entry can be read back into the entry's numbers.
-/

namespace GlyphTables.Cpp

theorem bound?_of_line? {d : Definition} {line : String} (written : d.line? = some line) {n : Nat}
    (bound : d.declarator.bound = Literal.natural n) : bound? line = some n := by
  obtain ⟨initializer, said, shape⟩ := toList_of_line? written
  let back := " = ".toList ++ '\x7b' :: ' ' :: (initializer.toList ++ [' ', '\x7d', ';'])
  obtain ⟨front, split⟩ : ∃ front,
      line.toList = front ++ '[' :: ((Literal.natural n).toList ++ ']' :: back) :=
    ⟨(Linkage.ofStatic d.isStatic).words.toList ++ d.declarator.elementType.toList ++
      ' ' :: d.declarator.name.toList, by simp [shape, back, bound]⟩
  have digits : IsWord (Literal.natural n) := isWord_natural n
  have bracket : '[' ∉ initializer.toList := notMem_initializer said (by decide)
  have absent : '[' ∉ [] ++ ((Literal.natural n).toList ++ ']' :: back) := by
    simp [back, bracket, digits.notMem (c := '[') rfl]
  have found : afterLast? ['['] line.toList = some ((Literal.natural n).toList ++ ']' :: back) := by
    rw [split]
    exact afterLast?_append front absent
  simp only [bound?, found, Option.bind_eq_bind, Option.bind_some]
  rw [if_pos (by simp), takeWhile_ne_append (digits.notMem (c := ']') rfl), Literal.natural,
    String.toList_ofList]
  exact Literal.natural?_toDigits (by decide) (by decide) n

/-! ## Entries -/

theorem writeData_eq_put_iff {table : Table} {entry : Table.Entry} {line : String} :
    writeData table entry = put (line ++ "\n") ↔
      (entryDefinition table entry).line? = some line := by
  rw [writeData_eq, writeDraft_eq_put_iff]
  cases (entryDefinition table entry).line? with
  | none => simp [text?]
  | some line' => simp [text?]

/-- `line` is what is written for `entry`, and it holds the numbers of the entry and how many they
are. -/
structure ReadsBack (table : Table) (entry : Table.Entry) (line : String) : Prop where
  written : writeData table entry = put (line ++ "\n")
  numbers : (initializerText? line).bind numbers? = some entry.array.values
  bound : bound? line = some entry.array.values.length

/-- The numbers of an entry, and how many there are, can be read off its line. -/
theorem readsBack_of_written {table : Table} {entry : Table.Entry} {line : String}
    (filled : entry.array.values ≠ []) (written : writeData table entry = put (line ++ "\n")) :
    ReadsBack table entry line := by
  have said := writeData_eq_put_iff.1 written
  refine ⟨written, ?_, bound?_of_line? said rfl⟩
  obtain ⟨initializer, here, found⟩ := initializerText?_of_line? said
  rw [found, Option.bind_some]
  exact numbers?_of_initializer? filled here

/-- **The definition of an entry reads back as the numbers of the entry**, and where two definitions
have the same initializer, the numbers are the same, however they are written. -/
theorem definition_reads_back {library : Library} (h : library.Accepted) (baseName : String)
    {table : Table} (mem : table ∈ library.tables) {entry : Table.Entry}
    (entryMem : entry ∈ table.entries) (narrow : entry.array.style.tooWide = false) :
    ∃ line, some line ∈ source library baseName ∧ ReadsBack table entry line ∧
      ∀ other : Library, other.Accepted → ∀ table' ∈ other.tables, ∀ entry' ∈ table'.entries,
        ∀ line', writeData table' entry' = put (line' ++ "\n") →
          initializerText? line' = initializerText? line →
            entry'.array.values = entry.array.values := by
  have writable : (entryDefinition table entry).line? ≠ none := line?_ne_none narrow
  obtain ⟨line, said⟩ := Option.ne_none_iff_exists'.1 writable
  have filled : entry.array.values ≠ [] := (h.wellNamed mem).filled entry entryMem
  have back : ReadsBack table entry line :=
    readsBack_of_written filled (writeData_eq_put_iff.2 said)
  refine ⟨line, said ▸ line?_mem_source mem baseName entryMem, back, ?_⟩
  intro other h' table' mem' entry' entryMem' line' written' same
  have filled' : entry'.array.values ≠ [] := (h'.wellNamed mem').filled entry' entryMem'
  have back' := (readsBack_of_written filled' written').numbers
  rw [same, back.numbers] at back'
  exact (Option.some.inj back').symm

/-- The least number of 64 bits, in both styles, behind a type with braces and brackets. -/
def leastNumbers : Library where
  target := "t"
  scope := ""
  includes := []
  preamble := ""
  tables :=
    [⟨⟨"f", "F", .array, "int", false, []⟩,
      [⟨"a", ⟨"v", "struct \x7b int b[7]; \x7d", [-9223372036854775808, 255], .hexadecimal 4⟩⟩,
        ⟨"b", ⟨"v", "long", [-9223372036854775808, 255], .decimal⟩⟩]⟩]

theorem definition_reads_back_leastNumbers :
    leastNumbers.Accepted ∧
      ∃ line, some line ∈ source leastNumbers "b" ∧
        (initializerText? line).bind numbers? = some [-9223372036854775808, 255] ∧
        bound? line = some 2 := by
  have accepted : leastNumbers.Accepted := by decide +kernel
  obtain ⟨line, inSource, back, -⟩ :=
    definition_reads_back accepted "b" List.mem_cons_self List.mem_cons_self rfl
  exact ⟨accepted, line, inSource, back.numbers, back.bound⟩

end GlyphTables.Cpp
