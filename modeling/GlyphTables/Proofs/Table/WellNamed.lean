import GlyphTables.Proofs.Identifier
import GlyphTables.Table.Builder

/-!
# Well-named tables

The naming rules of a table, stated of the table alone, and the invariant of the builder, which
keeps them along with the identifiers that it has handed out.

* `wellNamed_append_iff` : what an entry must bring along to join a well-named table;
* `Sound.objection?_eq_none_iff` : a sound builder lets an entry in exactly if it brings that along,
  so the checks of `insert` neither miss nor add a rule;
* `Sound.push` : the invariant survives every entry that is let in.
-/

namespace GlyphTables.Table

/-- The rules that the names of a table and of its entries keep. -/
structure WellNamed (table : Table) : Prop where
  name : isIdentifier table.name = true
  symbolPrefix : isIdentifier table.metadata.symbolPrefix = true
  entryNames : ∀ entry ∈ table.entries, isIdentifier entry.name = true
  arrayNames : ∀ entry ∈ table.entries, isIdentifier entry.array.name = true
  filled : ∀ entry ∈ table.entries, entry.array.values ≠ []
  distinctNames : table.entries.Pairwise fun a b => eqIgnoringCase a.name b.name = false
  distinctSymbols : (table.entries.map table.symbol).Nodup
  distinctDataNames : (table.entries.map table.dataName).Nodup
  unreserved : table.metadata.kind = .enumerated → ∀ entry ∈ table.entries,
    table.symbol entry ≠ table.countSymbol ∧ table.symbol entry ≠ table.enumName

instance (table : Table) : Decidable table.WellNamed :=
  decidable_of_iff
    (isIdentifier table.name = true ∧ isIdentifier table.metadata.symbolPrefix = true ∧
      (∀ entry ∈ table.entries, isIdentifier entry.name = true) ∧
      (∀ entry ∈ table.entries, isIdentifier entry.array.name = true) ∧
      (∀ entry ∈ table.entries, entry.array.values ≠ []) ∧
      (table.entries.Pairwise fun a b => eqIgnoringCase a.name b.name = false) ∧
      (table.entries.map table.symbol).Nodup ∧ (table.entries.map table.dataName).Nodup ∧
      (table.metadata.kind = .enumerated → ∀ entry ∈ table.entries,
        table.symbol entry ≠ table.countSymbol ∧ table.symbol entry ≠ table.enumName))
    ⟨fun ⟨h1, h2, h3, h4, h5, h6, h7, h8, h9⟩ => ⟨h1, h2, h3, h4, h5, h6, h7, h8, h9⟩,
      fun ⟨h1, h2, h3, h4, h5, h6, h7, h8, h9⟩ => ⟨h1, h2, h3, h4, h5, h6, h7, h8, h9⟩⟩

theorem symbol_eq_iff (table : Table) (a b : Entry) :
    table.symbol a = table.symbol b ↔ eqIgnoringCase a.name b.name = true :=
  symbol_eq_symbol_iff _ _ _

/-- What an entry must bring along to join the entries of `table`. -/
structure Admits (table : Table) (entry : Entry) : Prop where
  entryName : isIdentifier entry.name = true
  arrayName : isIdentifier entry.array.name = true
  filled : entry.array.values ≠ []
  symbol : ∀ e ∈ table.entries, table.symbol e ≠ table.symbol entry
  dataName : ∀ e ∈ table.entries, table.dataName e ≠ table.dataName entry
  unreserved : table.metadata.kind = .enumerated →
    table.symbol entry ≠ table.countSymbol ∧ table.symbol entry ≠ table.enumName

/-- A table with one more entry at its end. -/
def append (table : Table) (entry : Entry) : Table :=
  { table with entries := table.entries ++ [entry] }

theorem forall_mem_concat {P : Entry → Prop} {entries : List Entry} {entry : Entry} :
    (∀ e ∈ entries ++ [entry], P e) ↔ (∀ e ∈ entries, P e) ∧ P entry := by
  rw [List.forall_mem_append, List.forall_mem_singleton]

theorem nodup_map_concat {f : Entry → String} {entries : List Entry} {entry : Entry} :
    ((entries ++ [entry]).map f).Nodup ↔
      (entries.map f).Nodup ∧ ∀ e ∈ entries, f e ≠ f entry := by
  rw [List.map_append, List.nodup_append]
  constructor
  · rintro ⟨nodup, -, apart⟩
    refine ⟨nodup, fun e he => ?_⟩
    exact apart _ (List.mem_map_of_mem he) _ (List.mem_singleton_self _)
  · rintro ⟨nodup, apart⟩
    refine ⟨nodup, List.nodup_singleton _, ?_⟩
    rintro _ hs _ ht rfl
    obtain ⟨e, he, hee⟩ := List.mem_map.1 hs
    exact apart e he (hee.trans (List.mem_singleton.1 ht))

theorem wellNamed_append_iff (table : Table) (entry : Entry) :
    (table.append entry).WellNamed ↔ table.WellNamed ∧ table.Admits entry := by
  constructor
  · intro h
    obtain ⟨names, name⟩ := forall_mem_concat.1 h.entryNames
    obtain ⟨arrays, array⟩ := forall_mem_concat.1 h.arrayNames
    obtain ⟨filled, fill⟩ := forall_mem_concat.1 h.filled
    obtain ⟨apart, -, -⟩ := List.pairwise_append.1 h.distinctNames
    obtain ⟨symbols, symbol⟩ := nodup_map_concat.1 h.distinctSymbols
    obtain ⟨dataNames, dataName⟩ := nodup_map_concat.1 h.distinctDataNames
    have free := fun kind => forall_mem_concat.1 (h.unreserved kind)
    constructor
    · exact ⟨h.name, h.symbolPrefix, names, arrays, filled, apart, symbols, dataNames,
        fun kind => (free kind).1⟩
    · exact ⟨name, array, fill, symbol, dataName, fun kind => (free kind).2⟩
  · rintro ⟨h, new⟩
    have fresh : ∀ e ∈ table.entries, eqIgnoringCase e.name entry.name = false := by
      intro e he
      rw [← Bool.not_eq_true, ← symbol_eq_iff]
      exact new.symbol e he
    constructor
    case name => exact h.name
    case symbolPrefix => exact h.symbolPrefix
    case entryNames => exact forall_mem_concat.2 ⟨h.entryNames, new.entryName⟩
    case arrayNames => exact forall_mem_concat.2 ⟨h.arrayNames, new.arrayName⟩
    case filled => exact forall_mem_concat.2 ⟨h.filled, new.filled⟩
    case distinctNames =>
      refine List.pairwise_append.2 ⟨h.distinctNames, List.pairwise_singleton _ _, ?_⟩
      exact fun e he => List.forall_mem_singleton.2 (fresh e he)
    case distinctSymbols => exact nodup_map_concat.2 ⟨h.distinctSymbols, new.symbol⟩
    case distinctDataNames => exact nodup_map_concat.2 ⟨h.distinctDataNames, new.dataName⟩
    case unreserved =>
      exact fun kind => forall_mem_concat.2 ⟨h.unreserved kind, new.unreserved kind⟩

namespace Builder

/-- The table of what has been added so far. -/
def table (b : Builder) : Table :=
  ⟨b.metadata, b.entries⟩

/-- The identifiers that a builder remembers are those of its entries, and the entries keep the
naming rules. -/
structure Sound (b : Builder) : Prop where
  symbols : b.symbols = b.entries.map fun entry =>
    GlyphTables.symbol b.metadata.symbolPrefix entry.name
  dataNames : b.dataNames = b.entries.map fun entry =>
    GlyphTables.dataName b.metadata.name entry.name entry.array.name
  wellNamed : b.table.WellNamed

/-! ## Starting -/

theorem new_eq_ok_iff (metadata : Metadata) (b : Builder) :
    Builder.new metadata = .ok b ↔
      isIdentifier metadata.name = true ∧ isIdentifier metadata.symbolPrefix = true ∧
        b = { metadata } := by
  unfold Builder.new unusableName?
  cases hn : isIdentifier metadata.name <;> cases hp : isIdentifier metadata.symbolPrefix <;>
    simp [hn, hp, eq_comm]

theorem sound_of_new {metadata : Metadata} {b : Builder} (h : Builder.new metadata = .ok b) :
    b.Sound := by
  obtain ⟨hn, hp, rfl⟩ := (new_eq_ok_iff metadata b).1 h
  refine ⟨rfl, rfl, ⟨hn, hp, ?_, ?_, ?_, ?_, ?_, ?_, ?_⟩⟩ <;> simp [table]

/-! ## Inserting -/

/-- If the identifiers taken are those that `f` gives the entries, their owner is found by `f`. -/
theorem owner?_map (b : Builder) (f : Entry → String) (identifier : String) :
    b.owner? (b.entries.map f) identifier = b.entries.find? fun entry => f entry == identifier := by
  unfold owner?
  induction b.entries with
  | nil => rfl
  | cons entry rest ih =>
    rw [List.map_cons, List.zip_cons_cons, List.lookup_cons, List.find?_cons, ih,
      BEq.comm]

theorem isReserved_eq_false_iff (b : Builder) (entry : Entry) :
    b.isReserved entry.name = false ↔
      b.table.symbol entry ≠ b.table.countSymbol ∧ b.table.symbol entry ≠ b.table.enumName := by
  simp [isReserved, table, Table.symbol, countSymbol, enumName]

theorem ite_some_eq_none_iff {α : Type} {c : Prop} [Decidable c] {found : α}
    {rest : Option α} : (if c then some found else rest) = none ↔ ¬ c ∧ rest = none := by
  by_cases h : c <;> simp [h]

/-- The checks of `insert`, one after the other. -/
theorem objection?_eq_none_iff (b : Builder) (name : String) (array : DataArray) :
    b.objection? name array = none ↔
      isIdentifier name = true ∧ isIdentifier array.name = true ∧ array.values ≠ [] ∧
        (∀ entry ∈ b.entries, entry.name ≠ name) ∧
        (b.metadata.kind = .enumerated → b.isReserved name = false) ∧
        b.owner? b.symbols (b.metadata.symbol name) = none ∧
        b.owner? b.dataNames (b.metadata.dataName name array) = none := by
  unfold objection?
  simp only [ite_some_eq_none_iff]
  cases b.owner? b.symbols (b.metadata.symbol name) with
  | none => simp
  | some first => simp

/-- There is no objection exactly to the entries that the table admits. -/
theorem Sound.objection?_eq_none_iff {b : Builder} (h : b.Sound) (name : String)
    (array : DataArray) :
    b.objection? name array = none ↔ b.table.Admits ⟨name, array⟩ := by
  have hs := b.owner?_map b.table.symbol (b.metadata.symbol name)
  have hd := b.owner?_map b.table.dataName (b.metadata.dataName name array)
  have hr := b.isReserved_eq_false_iff ⟨name, array⟩
  rw [show b.entries.map b.table.symbol = b.symbols from h.symbols.symm] at hs
  rw [show b.entries.map b.table.dataName = b.dataNames from h.dataNames.symm] at hd
  rw [Builder.objection?_eq_none_iff, hs, hd, hr]
  simp only [List.find?_eq_none, beq_iff_eq]
  constructor
  · rintro ⟨h1, h2, h3, -, h5, h6, h7⟩
    exact ⟨h1, h2, h3, h6, h7, h5⟩
  · rintro ⟨h1, h2, h3, h6, h7, h5⟩
    refine ⟨h1, h2, h3, ?_, h5, h6, h7⟩
    rintro e he rfl
    exact h6 e he rfl

theorem table_push (b : Builder) (entry : Entry) :
    (b.push entry.name entry.array).table = b.table.append entry := rfl

theorem Sound.push {b : Builder} (h : b.Sound) {name : String} {array : DataArray}
    (free : b.objection? name array = none) : (b.push name array).Sound := by
  refine ⟨?_, ?_, ?_⟩
  · simp [Builder.push, h.symbols, Metadata.symbol]
  · simp [Builder.push, h.dataNames, Metadata.dataName]
  · rw [table_push b ⟨name, array⟩, wellNamed_append_iff]
    exact ⟨h.wellNamed, (h.objection?_eq_none_iff name array).1 free⟩

end Builder

end GlyphTables.Table
