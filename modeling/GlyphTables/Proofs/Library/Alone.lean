import GlyphTables.Proofs.Library.Assembly
import GlyphTables.Proofs.Lists
import GlyphTables.Proofs.Table.Identifiers
import GlyphTables.Proofs.Table.Run

/-!
# A table alone in its library

The identifiers of one table are kept apart by the rules of its builder, but for one kind of pair: in
an enumerated table the constant of an entry can be the data name of an entry, if no letter is in
either.

* `exists_word_of_repeat` : an identifier that comes twice is a constant and a data name;
* `nodup_identifiers_of_array` : without an enumeration no identifier comes twice;
* `exists_entry_of_repeat` : the constant is then that of an entry;
* `Library.assemble_of_nodup` : a library of one table without repeated identifiers is accepted;
* `Built.repeats` : which identifiers of a built table can come twice, and the libraries of one table.
-/

namespace GlyphTables

namespace Table

variable {table : Table}

/-- The identifiers of a table fall into the array name with the constants, and the data names. -/
theorem WellNamed.nodup_parts (h : table.WellNamed) :
    (table.arrayName :: table.words.map table.metadata.symbol).Nodup ∧
      (table.entries.map table.dataName).Nodup := by
  refine ⟨List.nodup_cons.2 ⟨?_, h.nodup_constants⟩, h.distinctDataNames⟩
  rw [List.mem_map]
  rintro ⟨word, -, same⟩
  exact table.arrayName_ne_symbol _ _ same.symm

theorem WellNamed.exists_word_of_repeat (h : table.WellNamed) {i j : Nat} (lt : i < j)
    {name : String} (hi : table.identifiers[i]? = some name)
    (hj : table.identifiers[j]? = some name) :
    ∃ p q word entry, i = 1 + p ∧ j = 1 + table.words.length + q ∧ table.words[p]? = some word ∧
      table.entries[q]? = some entry ∧ table.metadata.symbol word = name ∧
      table.dataName entry = name := by
  rw [identifiers_eq] at hi hj
  obtain ⟨nodup, nodup'⟩ := h.nodup_parts
  obtain ⟨front, q, hq, back⟩ := getElem?_of_repeat_append nodup nodup' lt hi hj
  rw [List.getElem?_map, Option.map_eq_some_iff] at back
  obtain ⟨entry, found, data⟩ := back
  cases i with
  | zero =>
    rw [List.getElem?_cons_zero, Option.some_inj] at front
    exact absurd (front.trans data.symm) (h.arrayName_ne_dataName (List.mem_of_getElem? found))
  | succ p =>
    rw [List.getElem?_cons_succ, List.getElem?_map, Option.map_eq_some_iff] at front
    obtain ⟨word, listed, constant⟩ := front
    rw [List.length_cons, List.length_map] at hq
    exact ⟨p, q, word, entry, by omega, by omega, listed, found, constant, data⟩

/-- A table without an enumeration has no symbols that could clash. -/
theorem WellNamed.nodup_identifiers_of_array (h : table.WellNamed)
    (kind : table.metadata.kind = .array) : table.identifiers.Nodup := by
  rw [List.nodup_iff_getElem?_ne_getElem?]
  intro i j lt bound same
  have hj := List.getElem?_eq_getElem bound
  obtain ⟨p, -, word, -, -, -, listed, -⟩ := h.exists_word_of_repeat lt (same.trans hj) hj
  rw [words, kind] at listed
  cases listed

theorem hasLetter_of_mem_enumeration : ∀ word ∈ [enumWord, countWord], HasLetter word := by
  rw [List.forall_mem_cons, List.forall_mem_singleton]
  exact ⟨⟨'R', by simp [enumWord], by decide⟩, ⟨'L', by simp [countWord], by decide⟩⟩

/-- The words of the enumeration itself have letters, so their constants are no data names. -/
theorem WellNamed.exists_entry_of_repeat (h : table.WellNamed)
    (kind : table.metadata.kind = .enumerated) {i j : Nat} (lt : i < j) {name : String}
    (hi : table.identifiers[i]? = some name) (hj : table.identifiers[j]? = some name) :
    ∃ p q entry other, i = 3 + p ∧ j = 3 + table.entries.length + q ∧
      table.entries[p]? = some entry ∧ table.entries[q]? = some other ∧
      table.symbol entry = name ∧ table.dataName other = name ∧ ¬ HasLetter name := by
  obtain ⟨p, q, word, other, rfl, rfl, listed, found, rfl, data⟩ := h.exists_word_of_repeat lt hi hj
  have letterless : ¬ HasLetter (table.metadata.symbol word) :=
    not_hasLetter_of_symbol_eq_dataName data.symm
  have words : table.words = [enumWord, countWord] ++ table.entries.map Entry.name := by
    rw [Table.words, kind]
  have length : table.words.length = 2 + table.entries.length := by
    simp [words]
    omega
  rw [words] at listed
  obtain inFront | inEntries := Nat.lt_or_ge p [enumWord, countWord].length
  · rw [List.getElem?_append_left inFront] at listed
    have letter := hasLetter_of_mem_enumeration word (List.mem_of_getElem? listed)
    exact absurd ((hasLetter_symbol_iff _ _).2 (.inr letter)) letterless
  · rw [List.getElem?_append_right inEntries, List.getElem?_map, Option.map_eq_some_iff] at listed
    obtain ⟨entry, found', rfl⟩ := listed
    have two : [enumWord, countWord].length = 2 := rfl
    exact ⟨p - 2, q, entry, other, by omega, by omega, found', found, rfl, data, letterless⟩

end Table

theorem Library.assemble_of_nodup {library : Library} {table : Table}
    (alone : library.tables = [table]) (target : ¬ library.Blank)
    (nodup : table.identifiers.Nodup) : library.assemble.outcome = .ok library := by
  refine Outcome.outcome_assemble (.accepted target ?_ ?_)
  · rw [alone]
    exact List.pairwise_singleton _ _
  · rw [alone, List.flatMap_singleton]
    exact nodup

namespace Table

/-- **Which identifiers of a table can come twice.** In a table that a builder has made nothing comes
twice without an enumeration. With one, the array name, the name of the enumeration and the count come
first, and only the constant of an entry and the data name of an entry can be the same, if no letter
is in them. So a table with a letter in its name or in its prefix makes a library on its own. -/
theorem Built.repeats {table : Table} (built : table.Built) :
    (table.metadata.kind = .array → table.identifiers.Nodup) ∧
      (table.metadata.kind = .enumerated → ∀ i j name, i < j →
        table.identifiers[i]? = some name → table.identifiers[j]? = some name →
        ∃ p q entry other, i = 3 + p ∧ j = 3 + table.entries.length + q ∧
          table.entries[p]? = some entry ∧ table.entries[q]? = some other ∧
          table.symbol entry = name ∧ table.dataName other = name ∧ ¬ HasLetter name) ∧
      ∀ library : Library, library.tables = [table] → ¬ library.Blank →
        HasLetter table.name ∨ HasLetter table.metadata.symbolPrefix →
        library.assemble.outcome = .ok library := by
  obtain ⟨named, -⟩ := table.built_iff.1 built
  refine ⟨named.nodup_identifiers_of_array, ?_, ?_⟩
  · intro kind i j name lt hi hj
    exact named.exists_entry_of_repeat kind lt hi hj
  · intro library alone target letters
    exact library.assemble_of_nodup alone target (named.nodup_identifiers letters.symm)

/-- A table whose names have no letters: the constant of its entry is the data name of its entry. -/
def letterless : Table :=
  ⟨⟨"_", "___", .enumerated, "int", false, []⟩, [⟨"_", ⟨"_", "int", [1], .decimal⟩⟩]⟩

/-- The same table with a letter in its name. -/
def lettered : Table :=
  { letterless with metadata := { letterless.metadata with name := "a" } }

/-- A library of nothing but the table. -/
def solo (table : Table) : Library :=
  ⟨"t", "", [], "", [table]⟩

theorem Built.repeats_letterless :
    letterless.identifiers[3]? = some "_____" ∧ letterless.identifiers[4]? = some "_____" ∧
      ¬ HasLetter "_____" ∧
      (solo letterless).assemble.outcome = .error (.identifierCollision "_" "_" "_____") ∧
      (solo lettered).assemble.outcome = .ok (solo lettered) := by
  have built : letterless.Built := letterless.built_iff.2 ⟨by decide +kernel, by simp [letterless]⟩
  have built' : lettered.Built :=
    lettered.built_iff.2 ⟨by decide +kernel, by simp [lettered, letterless]⟩
  have constant : letterless.identifiers[3]? = some "_____" := by cbv
  have data : letterless.identifiers[4]? = some "_____" := by cbv
  obtain ⟨-, repeats, -⟩ := built.repeats
  obtain ⟨-, -, -, -, -, -, -, -, -, -, bare⟩ := repeats rfl 3 4 _ (by decide) constant data
  refine ⟨constant, data, bare, by cbv, built'.repeats.2.2 (solo lettered) rfl ?_ (.inl ?_)⟩
  · intro blank
    exact absurd (blank 't' (by simp [solo])) (by decide)
  · exact ⟨'a', by simp [lettered, Table.name], by decide⟩

end Table

end GlyphTables
