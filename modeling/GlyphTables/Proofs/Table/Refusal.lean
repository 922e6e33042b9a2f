import GlyphTables.Proofs.Lists
import GlyphTables.Proofs.Table.Run

/-!
# Which entries are refused

A new entry is held against seven rules, one after the other, and the first that it breaks is
reported. The builder compares generated identifiers and looks up who has taken them; here the rules
speak of the names as they were given.

* `Builder.objection?_eq_findSome?` : the builder looks at the rules in their order;
* `Builder.Sound.check_eq_some_iff` : each check refuses exactly the breaches of its rule;
* `Builder.insert_outcome_iff` : what inserting comes to on any builder that steps lead to.
-/

namespace GlyphTables.Table

/-! ## Rules -/

inductive Rule where
  | entryName
  | arrayName
  | filled
  | newName
  | unreserved
  | newSymbol
  | newDataName
  deriving DecidableEq

/-- The rules in the order in which they are looked at. -/
def Rule.inOrder : List Rule :=
  [.entryName, .arrayName, .filled, .newName, .unreserved, .newSymbol, .newDataName]

/-- The rules that are looked at before this one. -/
def Rule.earlier (rule : Rule) : List Rule :=
  inOrder.takeWhile (· ≠ rule)

theorem Rule.exists_split (rule : Rule) : ∃ later, inOrder = rule.earlier ++ rule :: later := by
  cases rule <;> exact ⟨_, rfl⟩

theorem Rule.earlier_of_split {rule : Rule} {before later : List Rule}
    (split : inOrder = before ++ rule :: later) (new : rule ∉ before) : rule.earlier = before := by
  rw [earlier, split, takeWhile_ne_append new]

theorem Rule.mem_inOrder (rule : Rule) : rule ∈ inOrder := by
  obtain ⟨later, split⟩ := rule.exists_split
  simp [split]

/-- How a new entry can break a rule against the entries of a table, and what is then reported. -/
inductive Breach (table : Table) (entry : Entry) : Rule → TableError → Prop
  | entryName (bad : isIdentifier entry.name = false) :
    Breach table entry .entryName (.invalidIdentifier table.name entry.name)
  | arrayName (bad : isIdentifier entry.array.name = false) :
    Breach table entry .arrayName (.invalidIdentifier table.name entry.array.name)
  | filled (empty : entry.array.values = []) :
    Breach table entry .filled (.emptyArray table.name entry.name)
  | newName (earlier : Entry) (mem : earlier ∈ table.entries) (same : earlier.name = entry.name) :
    Breach table entry .newName (.duplicateName table.name entry.name)
  | unreserved (kind : table.metadata.kind = .enumerated) (word : String)
    (mem : word ∈ [countWord, enumWord]) (same : eqIgnoringCase entry.name word = true) :
    Breach table entry .unreserved (.reservedName table.name entry.name)
  | newSymbol (first : Entry) (mem : first ∈ table.entries)
    (same : eqIgnoringCase first.name entry.name = true) :
    Breach table entry .newSymbol
      (.collision table.name first.name entry.name
        (table.metadata.symbolPrefix ++ "_" ++ entry.name).toUpper)
  | newDataName (first : Entry) (mem : first ∈ table.entries)
    (same : eqIgnoringCase (first.name ++ "_" ++ first.array.name)
      (entry.name ++ "_" ++ entry.array.name) = true) :
    Breach table entry .newDataName
      (.collision table.name first.name entry.name
        (table.name ++ "_" ++ entry.name ++ "_" ++ entry.array.name).toLower)

/-- The entry breaks `rule` and none of the rules before it. -/
structure FirstBreach (table : Table) (entry : Entry) (rule : Rule) (error : TableError) : Prop where
  breach : Breach table entry rule error
  kept : ∀ earlier ∈ rule.earlier, ∀ other, ¬ Breach table entry earlier other

namespace Builder

/-! ## Checks -/

/-- What the builder reports of one rule. -/
def check (b : Builder) (entry : Entry) : Rule → Option TableError
  | .entryName =>
    if !isIdentifier entry.name then some (.invalidIdentifier b.metadata.name entry.name) else none
  | .arrayName =>
    if !isIdentifier entry.array.name then
      some (.invalidIdentifier b.metadata.name entry.array.name)
    else none
  | .filled =>
    if entry.array.values.isEmpty then some (.emptyArray b.metadata.name entry.name) else none
  | .newName =>
    if b.entries.any fun earlier => earlier.name == entry.name then
      some (.duplicateName b.metadata.name entry.name)
    else none
  | .unreserved =>
    if b.metadata.kind == .enumerated && b.isReserved entry.name then
      some (.reservedName b.metadata.name entry.name)
    else none
  | .newSymbol =>
    (b.owner? b.symbols (b.metadata.symbol entry.name)).map fun first =>
      .collision b.metadata.name first.name entry.name (b.metadata.symbol entry.name)
  | .newDataName =>
    (b.owner? b.dataNames (b.metadata.dataName entry.name entry.array)).map fun first =>
      .collision b.metadata.name first.name entry.name
        (b.metadata.dataName entry.name entry.array)

/-- The rules are asked in order, and the first one that is broken is reported. -/
theorem objection?_eq_findSome? (b : Builder) (entry : Entry) :
    b.objection? entry.name entry.array = Rule.inOrder.findSome? (b.check entry) := by
  simp only [objection?, Rule.inOrder, List.findSome?_cons, check, List.findSome?_nil]
  iterate 5
    split
    · rfl
  cases b.owner? b.symbols (b.metadata.symbol entry.name) with
  | some first => rfl
  | none => cases b.owner? b.dataNames (b.metadata.dataName entry.name entry.array) <;> rfl

theorem isReserved_eq_true_iff (b : Builder) (name : String) :
    b.isReserved name = true ↔
      ∃ word ∈ [countWord, enumWord], eqIgnoringCase name word = true := by
  simp only [isReserved, List.any_eq_true, beq_iff_eq, Metadata.symbol, symbol_eq_symbol_iff]

/-- The owner of a symbol is found by the name of the entry. -/
theorem Sound.owner?_symbols {b : Builder} (h : b.Sound) (name : String) :
    b.owner? b.symbols (b.metadata.symbol name) =
      b.entries.find? fun entry => eqIgnoringCase entry.name name := by
  rw [h.symbols, owner?_map]
  congr 1
  funext entry
  rw [Bool.eq_iff_iff, beq_iff_eq]
  exact symbol_eq_symbol_iff _ _ _

theorem Sound.owner?_dataNames {b : Builder} (h : b.Sound) (name : String) (array : DataArray) :
    b.owner? b.dataNames (b.metadata.dataName name array) =
      b.entries.find? fun entry =>
        eqIgnoringCase (entry.name ++ "_" ++ entry.array.name) (name ++ "_" ++ array.name) := by
  rw [h.dataNames, owner?_map]
  congr 1
  funext entry
  rw [Bool.eq_iff_iff, beq_iff_eq]
  exact dataName_eq_dataName_iff _ _ _ _ _

/-- Only one entry can have taken a symbol. -/
theorem Sound.subsingleton_symbol {b : Builder} (h : b.Sound) (name : String) :
    {first | first ∈ b.entries ∧ eqIgnoringCase first.name name = true}.Subsingleton := by
  rintro first ⟨mem, same⟩ other ⟨mem', same'⟩
  refine List.inj_on_of_nodup_map h.wellNamed.distinctSymbols mem mem' ?_
  have symbol : ∀ entry : Entry, eqIgnoringCase entry.name name = true →
      b.table.symbol entry = b.metadata.symbol name :=
    fun entry => (symbol_eq_symbol_iff _ _ _).2
  rw [symbol first same, symbol other same']

/-- Only one entry can have taken a data name. -/
theorem Sound.subsingleton_dataName {b : Builder} (h : b.Sound) (name : String)
    (array : DataArray) :
    {first | first ∈ b.entries ∧ eqIgnoringCase (first.name ++ "_" ++ first.array.name)
      (name ++ "_" ++ array.name) = true}.Subsingleton := by
  rintro first ⟨mem, same⟩ other ⟨mem', same'⟩
  refine List.inj_on_of_nodup_map h.wellNamed.distinctDataNames mem mem' ?_
  have dataName : ∀ entry : Entry, eqIgnoringCase (entry.name ++ "_" ++ entry.array.name)
      (name ++ "_" ++ array.name) = true →
      b.table.dataName entry = b.metadata.dataName name array :=
    fun entry => (dataName_eq_dataName_iff _ _ _ _ _).2
  rw [dataName first same, dataName other same']

/-- Each check refuses exactly the breaches of its rule. -/
theorem Sound.check_eq_some_iff {b : Builder} (h : b.Sound) (entry : Entry) (rule : Rule)
    (error : TableError) : b.check entry rule = some error ↔ Breach b.table entry rule error := by
  cases rule with
  | entryName =>
    rw [check, Option.ite_none_right_eq_some, Option.some_inj, Bool.not_eq_true']
    constructor
    · rintro ⟨bad, rfl⟩
      exact .entryName bad
    · intro breach
      cases breach with
      | entryName bad => exact ⟨bad, rfl⟩
  | arrayName =>
    rw [check, Option.ite_none_right_eq_some, Option.some_inj, Bool.not_eq_true']
    constructor
    · rintro ⟨bad, rfl⟩
      exact .arrayName bad
    · intro breach
      cases breach with
      | arrayName bad => exact ⟨bad, rfl⟩
  | filled =>
    rw [check, Option.ite_none_right_eq_some, Option.some_inj, List.isEmpty_iff]
    constructor
    · rintro ⟨empty, rfl⟩
      exact .filled empty
    · intro breach
      cases breach with
      | filled empty => exact ⟨empty, rfl⟩
  | newName =>
    rw [check, Option.ite_none_right_eq_some, Option.some_inj, List.any_eq_true]
    constructor
    · rintro ⟨⟨earlier, mem, same⟩, rfl⟩
      exact .newName earlier mem (beq_iff_eq.1 same)
    · intro breach
      cases breach with
      | newName earlier mem same => exact ⟨⟨earlier, mem, beq_iff_eq.2 same⟩, rfl⟩
  | unreserved =>
    rw [check, Option.ite_none_right_eq_some, Option.some_inj, Bool.and_eq_true, beq_iff_eq,
      isReserved_eq_true_iff]
    constructor
    · rintro ⟨⟨kind, word, mem, same⟩, rfl⟩
      exact .unreserved kind word mem same
    · intro breach
      cases breach with
      | unreserved kind word mem same => exact ⟨⟨kind, word, mem, same⟩, rfl⟩
  | newSymbol =>
    rw [check, h.owner?_symbols, Option.map_eq_some_iff]
    simp only [find?_eq_some_iff_of_subsingleton (h.subsingleton_symbol entry.name)]
    constructor
    · rintro ⟨first, ⟨mem, same⟩, rfl⟩
      exact .newSymbol first mem same
    · intro breach
      cases breach with
      | newSymbol first mem same => exact ⟨first, ⟨mem, same⟩, rfl⟩
  | newDataName =>
    rw [check, h.owner?_dataNames, Option.map_eq_some_iff]
    simp only [find?_eq_some_iff_of_subsingleton (h.subsingleton_dataName entry.name entry.array)]
    constructor
    · rintro ⟨first, ⟨mem, same⟩, rfl⟩
      exact .newDataName first mem same
    · intro breach
      cases breach with
      | newDataName first mem same => exact ⟨first, ⟨mem, same⟩, rfl⟩

theorem Sound.check_eq_none_iff {b : Builder} (h : b.Sound) (entry : Entry) (rule : Rule) :
    b.check entry rule = none ↔ ∀ error, ¬ Breach b.table entry rule error := by
  rw [Option.eq_none_iff_forall_ne_some]
  exact forall_congr' fun error => not_congr (h.check_eq_some_iff entry rule error)

/-! ## Outcomes -/

theorem Sound.objection?_eq_some_iff {b : Builder} (h : b.Sound) (entry : Entry)
    (error : TableError) :
    b.objection? entry.name entry.array = some error ↔
      ∃ rule, FirstBreach b.table entry rule error := by
  rw [objection?_eq_findSome?, List.findSome?_eq_some_iff]
  constructor
  · rintro ⟨before, rule, later, split, found, free⟩
    have new : rule ∉ before := by
      intro mem
      rw [free rule mem] at found
      cases found
    refine ⟨rule, (h.check_eq_some_iff entry rule error).1 found, ?_⟩
    rw [Rule.earlier_of_split split new]
    exact fun earlier mem => (h.check_eq_none_iff entry earlier).1 (free earlier mem)
  · rintro ⟨rule, breach, kept⟩
    obtain ⟨later, split⟩ := rule.exists_split
    refine ⟨rule.earlier, rule, later, split, (h.check_eq_some_iff entry rule error).2 breach, ?_⟩
    exact fun earlier mem => (h.check_eq_none_iff entry earlier).2 (kept earlier mem)

theorem Sound.objection?_eq_none_iff_breach {b : Builder} (h : b.Sound) (entry : Entry) :
    b.objection? entry.name entry.array = none ↔
      ∀ rule error, ¬ Breach b.table entry rule error := by
  rw [objection?_eq_findSome?, List.findSome?_eq_none_iff]
  constructor
  · exact fun free rule => (h.check_eq_none_iff entry rule).1 (free rule rule.mem_inOrder)
  · exact fun free rule _ => (h.check_eq_none_iff entry rule).2 (free rule)

theorem Sound.insertGlyph_eq_error_iff {b : Builder} (h : b.Sound) (name text : String)
    (error : TableError) :
    (b.insertGlyph name text).outcome = .error error ↔
      (∃ shape, Glyph.parse text = .error shape ∧
        .malformedGlyph b.metadata.name name shape = error) ∨
      ∃ glyph rule, Glyph.parse text = .ok glyph ∧
        FirstBreach b.table ⟨name, glyphArray glyph⟩ rule error := by
  unfold insertGlyph
  cases Glyph.parse text with
  | error shape => simp [Logged.fail]
  | ok glyph =>
    simp only [outcome_insert, reduceCtorEq, false_and, exists_false, false_or, Except.ok.injEq,
      exists_and_left, exists_eq_left', ← h.objection?_eq_some_iff]
    cases b.objection? name (glyphArray glyph) <;> simp

/-- A builder that some steps lead to. -/
def Reachable (b : Builder) : Prop :=
  ∃ (metadata : Metadata) (start : Builder) (steps : List Step),
    Builder.new metadata = .ok start ∧ start.after steps = b

theorem Reachable.sound {b : Builder} (h : b.Reachable) : b.Sound := by
  obtain ⟨metadata, start, steps, begun, rfl⟩ := h
  exact (sound_of_new begun).after steps

/-- **When an entry is refused, and what is said.** On every builder that steps lead to, an entry is
refused exactly if it breaks a rule, with the error of the first rule that it breaks, and goes in
otherwise. The entry that has taken the symbol or the data name first is the only one. A text that
is no glyph is refused before any rule is looked at; a glyph goes the way of its packed rows. -/
theorem insert_outcome_iff {b : Builder} (reached : b.Reachable) (name : String)
    (array : DataArray) :
    (∀ error, (b.insert name array).outcome = .error error ↔
        ∃ rule, FirstBreach b.table ⟨name, array⟩ rule error) ∧
      ((b.insert name array).outcome = .ok (b.push name array) ↔
        ∀ rule error, ¬ Breach b.table ⟨name, array⟩ rule error) ∧
      {first | first ∈ b.entries ∧ eqIgnoringCase first.name name = true}.Subsingleton ∧
      {first | first ∈ b.entries ∧ eqIgnoringCase (first.name ++ "_" ++ first.array.name)
        (name ++ "_" ++ array.name) = true}.Subsingleton ∧
      ∀ text,
        (∀ error, Glyph.parse text = .error error →
          (b.insertGlyph name text).outcome =
            .error (.malformedGlyph b.metadata.name name error)) ∧
        (∀ glyph, Glyph.parse text = .ok glyph →
          b.insertGlyph name text = b.insert name
            { name := "data"
              elementType := "uint8_t"
              values := glyph.pack.toList.map fun byte => (byte.toNat : Int)
              style := .hexadecimal 2 }) := by
  have sound := reached.sound
  refine ⟨?_, ?_, sound.subsingleton_symbol name, sound.subsingleton_dataName name array, ?_⟩
  · intro error
    rw [← sound.objection?_eq_some_iff ⟨name, array⟩, outcome_insert]
    cases b.objection? name array <;> simp
  · rw [← sound.objection?_eq_none_iff_breach ⟨name, array⟩, outcome_insert]
    cases b.objection? name array <;> simp
  · intro text
    constructor
    · intro error malformed
      rw [insertGlyph, malformed]
      rfl
    · intro glyph parsed
      rw [insertGlyph, parsed]
      rfl

/-- A builder with one entry, whose name and array name are cut at the second underscore. -/
def halved : Builder :=
  Builder.push { metadata := trialMetadata } "x_y" { trialArray with name := "data" }

/-- The same data name, cut at the first underscore and in another letter case, is refused; the symbol
alone would not be. -/
theorem insert_outcome_iff_halved :
    halved.Reachable ∧
      (∃ rule, FirstBreach halved.table ⟨"X", { trialArray with name := "Y_Data" }⟩ rule
        (.collision "t" "x_y" "X" "t_x_y_data")) ∧
      ∀ rule error, ¬ Breach halved.table ⟨"X", { trialArray with name := "Y_Dat" }⟩ rule error := by
  have reached : halved.Reachable :=
    ⟨trialMetadata, { metadata := trialMetadata },
      [.add "x_y" (.array { trialArray with name := "data" })], by cbv, by cbv⟩
  refine ⟨reached, ?_, ?_⟩
  · refine ((insert_outcome_iff reached "X" { trialArray with name := "Y_Data" }).1 _).1 ?_
    cbv
  · refine (insert_outcome_iff reached "X" { trialArray with name := "Y_Dat" }).2.1.1 ?_
    cbv

end Builder

end GlyphTables.Table
