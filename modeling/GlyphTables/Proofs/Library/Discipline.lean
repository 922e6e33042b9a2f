import GlyphTables.Proofs.Library.Assembly
import GlyphTables.Proofs.Table.Identifiers

/-!
# Libraries that are always accepted

Authors who keep the names of their tables and the prefixes of their constants apart need not look
at the entries at all.

* `nodup_flatMap_identifiers` : no identifier comes twice in tables that are kept apart;
* `assemble_of_independent` : a library of such tables is accepted.
-/

namespace GlyphTables.Library

open Table

theorem not_rivals_of_keptApart {a b : Table} (h : KeptApart a b) : ¬ Rivals a b := by
  rintro (names | prefixes)
  · exact absurd h.names.different (by simp [names, eqIgnoringCase])
  · exact absurd h.prefixes.different (ne_false_of_eq_true prefixes)

/-- Tables that are kept apart in pairs have no identifier in common. -/
theorem nodup_flatMap_identifiers {tables : List Table} (named : ∀ table ∈ tables, table.WellNamed)
    (letters : ∀ table ∈ tables,
      HasLetter table.metadata.symbolPrefix ∨ HasLetter table.name)
    (apart : tables.Pairwise KeptApart) : (tables.flatMap Table.identifiers).Nodup := by
  refine List.nodup_flatMap.2 ⟨fun table mem => ?_, ?_⟩
  · exact (named table mem).nodup_identifiers (letters table mem)
  · refine apart.imp_of_mem fun {a b} memA memB h => ?_
    exact h.disjoint_identifiers (named a memA) (named b memB)

/-- **Tables with independent names and prefixes make a library**, whatever their entries, if every
prefix holds a letter or every table name does. -/
theorem assemble_of_independent {library : Library} (target : ¬ library.Blank)
    (built : ∀ table ∈ library.tables, table.Built)
    (prefixes : library.tables.Pairwise fun a b =>
      Independent a.metadata.symbolPrefix b.metadata.symbolPrefix)
    (names : library.tables.Pairwise fun a b => Independent a.name b.name)
    (letters : (∀ table ∈ library.tables, HasLetter table.metadata.symbolPrefix) ∨
      ∀ table ∈ library.tables, HasLetter table.name) :
    library.assemble.outcome = .ok library := by
  have named : ∀ table ∈ library.tables, table.WellNamed :=
    fun table mem => (table.built_iff.1 (built table mem)).1
  have letter : ∀ table ∈ library.tables,
      HasLetter table.metadata.symbolPrefix ∨ HasLetter table.name :=
    fun table mem => letters.imp (· table mem) (· table mem)
  have apart : library.tables.Pairwise KeptApart := by
    refine (prefixes.and names).imp_of_mem fun {a b} memA memB h => ⟨h.2, h.1, ?_⟩
    exact letters.imp (fun all => ⟨all a memA, all b memB⟩) fun all => ⟨all a memA, all b memB⟩
  refine Outcome.outcome_assemble (.accepted target ?_ ?_)
  · exact apart.imp not_rivals_of_keptApart
  · exact nodup_flatMap_identifiers named letter apart

/-- Two tables whose names and prefixes only just differ, with entries that look like the counts and
like the entries of each other. -/
def neighbours : Library where
  target := "t"
  scope := ""
  includes := []
  preamble := ""
  tables :=
    [⟨⟨"f", "A", .enumerated, "int", false, []⟩,
        [⟨"B_last", ⟨"v", "int", [1], .decimal⟩⟩, ⟨"_1", ⟨"s", "int", [2], .decimal⟩⟩]⟩,
      ⟨⟨"fs", "Ab", .enumerated, "int", true, []⟩, [⟨"last_", ⟨"v", "int", [3], .decimal⟩⟩]⟩]

theorem assemble_of_independent_neighbours :
    Independent "A" "Ab" ∧ Independent "f" "fs" ∧ neighbours.assemble.outcome = .ok neighbours := by
  refine ⟨by decide +kernel, by decide +kernel, assemble_of_independent ?_ ?_ ?_ ?_ (.inl ?_)⟩
  · intro blank
    exact absurd (blank 't' (by simp [neighbours])) (by decide)
  · simp only [neighbours, List.forall_mem_cons, Table.built_iff, ne_eq, reduceCtorEq,
      not_false_eq_true, and_true, List.not_mem_nil, IsEmpty.forall_iff, implies_true]
    constructor
    all_goals
      constructor
      all_goals decide +kernel
  · simp only [neighbours, List.pairwise_pair]
    decide +kernel
  · simp only [neighbours, List.pairwise_pair]
    decide +kernel
  · simp only [neighbours, List.forall_mem_cons, List.not_mem_nil, IsEmpty.forall_iff,
      implies_true, and_true]
    exact ⟨⟨'A', by simp, by decide⟩, ⟨'A', by simp, by decide⟩⟩

end GlyphTables.Library
