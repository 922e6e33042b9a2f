import GlyphTables.Proofs.Table.Run

/-!
# Tables made in one go

A table is made of its contents by adding them one after the other; the first error ends it. Which
contents make a table can be said of the finished table alone.

* `WellNamed.sublist` : a table stays well named when entries are left out;
* `ofContents_eq_ok_iff` : contents make a table exactly if all of them are data, there are some, and
  the table of them is well named.
-/

namespace GlyphTables

theorem Logged.outcome_bind_eq_ok_iff {ε α β : Type} (x : Logged ε α) (f : α → Logged ε β)
    (b : β) : (x >>= f).outcome = .ok b ↔ ∃ a, x.outcome = .ok a ∧ (f a).outcome = .ok b := by
  rw [outcome_bind]
  cases h : x.outcome with
  | error e =>
    change Except.error e = Except.ok b ↔ _
    simp
  | ok a =>
    change (f a).outcome = .ok b ↔ _
    simp

namespace Table

open Builder

/-! ## Leaving entries out -/

/-- Leaving out entries breaks no rule on names. -/
theorem WellNamed.sublist {table : Table} (h : table.WellNamed) {entries : List Entry}
    (fewer : entries.Sublist table.entries) : WellNamed ⟨table.metadata, entries⟩ := by
  have mem : ∀ entry ∈ entries, entry ∈ table.entries := fun entry he => fewer.subset he
  constructor
  case name => exact h.name
  case symbolPrefix => exact h.symbolPrefix
  case entryNames => exact fun entry he => h.entryNames entry (mem entry he)
  case arrayNames => exact fun entry he => h.arrayNames entry (mem entry he)
  case filled => exact fun entry he => h.filled entry (mem entry he)
  case distinctNames => exact h.distinctNames.sublist fewer
  case distinctSymbols => exact h.distinctSymbols.sublist (fewer.map _)
  case distinctDataNames => exact h.distinctDataNames.sublist (fewer.map _)
  case unreserved => exact fun kind entry he => h.unreserved kind entry (mem entry he)

/-! ## Adding one after the other -/

/-- The entries that contents come down to, if each of them is data. -/
def entries? (contents : List (String × Content)) : Option (List Entry) :=
  contents.mapM fun content => content.2.array?.map (Entry.mk content.1)

theorem entries?_cons_eq_some_iff (content : String × Content)
    (rest : List (String × Content)) (entries : List Entry) :
    entries? (content :: rest) = some entries ↔
      ∃ array others, content.2.array? = some array ∧ entries? rest = some others ∧
        entries = ⟨content.1, array⟩ :: others := by
  unfold entries?
  rw [List.mapM_cons]
  cases content.2.array? with
  | none => simp
  | some array =>
    cases rest.mapM fun content => content.2.array?.map (Entry.mk content.1) with
    | none => simp
    | some others => simp [eq_comm]

/-- What adding contents to a sound builder comes to. -/
theorem exists_foldlM_add_iff {b : Builder} (h : b.Sound) (contents : List (String × Content))
    (table : Table) :
    (∃ full : Builder, full.table = table ∧
        (contents.foldlM (fun (b : Builder) content => b.add content.1 content.2) b).outcome =
          .ok full) ↔
      ∃ entries, entries? contents = some entries ∧ table = ⟨b.metadata, b.entries ++ entries⟩ ∧
        table.WellNamed := by
  induction contents generalizing b with
  | nil =>
    constructor
    · rintro ⟨full, rfl, ended⟩
      obtain rfl : b = full := Except.ok.inj ended
      exact ⟨[], rfl, by simp [Builder.table], h.wellNamed⟩
    · rintro ⟨entries, none, rfl, named⟩
      obtain rfl : [] = entries := Option.some.inj none
      exact ⟨b, by simp [Builder.table], rfl⟩
  | cons content rest ih =>
    rw [List.foldlM_cons]
    simp only [Logged.outcome_bind_eq_ok_iff, entries?_cons_eq_some_iff]
    constructor
    · rintro ⟨full, made, b', first, others⟩
      obtain ⟨array, isData, free, rfl⟩ := (outcome_add_eq_ok_iff b b' _ _).1 first
      obtain ⟨entries, hs, rfl, named⟩ := (ih (h.push free)).1 ⟨full, made, others⟩
      refine ⟨_, ⟨array, entries, isData, hs, rfl⟩, ?_, named⟩
      simp [push]
    · rintro ⟨_, ⟨array, entries, isData, hs, rfl⟩, rfl, named⟩
      -- the entries up to this one are well named as well, so it is let in
      have sofar : (b.table.append ⟨content.1, array⟩).WellNamed := by
        have fewer : (b.entries ++ [Entry.mk content.1 array]).Sublist
            (b.entries ++ Entry.mk content.1 array :: entries) := by
          simp
        exact named.sublist fewer
      have free := (h.objection?_eq_none_iff content.1 array).2
        ((wellNamed_append_iff _ _).1 sofar).2
      have first := (outcome_add_eq_ok_iff b _ content.1 content.2).2 ⟨array, isData, free, rfl⟩
      obtain ⟨full, made, others⟩ := (ih (h.push free)).2
        ⟨entries, hs, by simp [push], named⟩
      exact ⟨full, made, _, first, others⟩

/-- **Which contents make a table, and which table.** -/
theorem ofContents_eq_ok_iff (metadata : Metadata) (contents : List (String × Content))
    (table : Table) :
    (ofContents metadata contents).outcome = .ok table ↔
      table.metadata = metadata ∧ entries? contents = some table.entries ∧ table.WellNamed ∧
        table.entries ≠ [] := by
  unfold ofContents
  simp only [Logged.outcome_bind_eq_ok_iff, Logged.ofExcept, build_eq_ok_iff]
  constructor
  · rintro ⟨b, start, full, added, filled, made⟩
    obtain ⟨entries, hs, rfl, named⟩ :=
      (exists_foldlM_add_iff (sound_of_new start) contents table).1 ⟨full, made, added⟩
    obtain ⟨-, -, rfl⟩ := (new_eq_ok_iff metadata b).1 start
    have same : full.entries = entries := congrArg Table.entries made
    exact ⟨rfl, by simpa using hs, named, by simpa [same] using filled⟩
  · rintro ⟨rfl, hs, named, filled⟩
    have start := (new_eq_ok_iff table.metadata _).2 ⟨named.name, named.symbolPrefix, rfl⟩
    obtain ⟨full, made, added⟩ := (exists_foldlM_add_iff (sound_of_new start) contents table).2
      ⟨table.entries, hs, rfl, named⟩
    have same : full.entries = table.entries := congrArg Table.entries made
    exact ⟨_, start, full, added, by rwa [same], made⟩

end Table

end GlyphTables
