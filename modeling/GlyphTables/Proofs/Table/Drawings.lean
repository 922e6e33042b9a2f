import GlyphTables.Proofs.Glyph.Reading
import GlyphTables.Proofs.Table.Contents
import GlyphTables.Proofs.Table.Refusal

/-!
# Tables of glyphs

A table can be made of drawings, each a name with the text of a glyph, by inserting one after the
other. Whether that succeeds can be said of the names and the texts alone, and in no order.

* `Drawable.perm` : the order of the drawings does not decide it;
* `wellNamed_iff_of_draws` : which names the table needs;
* `not_newDataName_of_draws` : among glyphs the data names differ where the names do;
* `ofGlyphs_outcome` : what making a table of drawings comes to.
-/

namespace GlyphTables

namespace Logged

variable {ε α β : Type}

theorem outcome_bind_eq_error_iff (x : Logged ε α) (f : α → Logged ε β) (e : ε) :
    (x >>= f).outcome = .error e ↔
      x.outcome = .error e ∨ ∃ a, x.outcome = .ok a ∧ (f a).outcome = .error e := by
  rw [outcome_bind]
  cases h : x.outcome with
  | error e' =>
    change Except.error e' = Except.error e ↔ _
    simp
  | ok a =>
    change (f a).outcome = .error e ↔ _
    simp

/-- A row of steps fails with the error of the first step that fails on what the steps before it
have made. -/
theorem outcome_foldlM_eq_error_iff (f : β → α → Logged ε β) (start : β) (xs : List α) (e : ε) :
    (xs.foldlM f start).outcome = .error e ↔
      ∃ front x rest b, xs = front ++ x :: rest ∧ (front.foldlM f start).outcome = .ok b ∧
        (f b x).outcome = .error e := by
  induction xs generalizing start with
  | nil =>
    constructor
    · intro failed
      cases failed
    · rintro ⟨front, x, rest, b, split, -, -⟩
      cases front <;> cases split
  | cons x xs ih =>
    rw [List.foldlM_cons, outcome_bind_eq_error_iff]
    constructor
    · rintro (failed | ⟨b, first, failed⟩)
      · exact ⟨[], x, xs, start, rfl, rfl, failed⟩
      · obtain ⟨front, y, rest, b', rfl, before, refused⟩ := (ih b).1 failed
        refine ⟨x :: front, y, rest, b', rfl, ?_, refused⟩
        rw [List.foldlM_cons, outcome_bind_eq_ok_iff]
        exact ⟨b, first, before⟩
    · rintro ⟨front, y, rest, b, split, before, refused⟩
      cases front with
      | nil =>
        cases split
        cases before
        exact .inl refused
      | cons z front =>
        cases split
        rw [List.foldlM_cons, outcome_bind_eq_ok_iff] at before
        obtain ⟨b', first, before⟩ := before
        exact .inr ⟨b', first, (ih b').2 ⟨front, y, rest, b, rfl, before, refused⟩⟩

end Logged

namespace Table

open Builder

/-! ## Drawings and their entries -/

/-- The entry holds the packed rows of the drawing under its name. -/
def Draws (drawing : String × String) (entry : Entry) : Prop :=
  ∃ glyph, Glyph.parse drawing.2 = .ok glyph ∧
    entry = ⟨drawing.1,
      { name := "data"
        elementType := "uint8_t"
        values := glyph.pack.toList.map fun byte => (byte.toNat : Int)
        style := .hexadecimal 2 }⟩

theorem Draws.name_eq {drawing : String × String} {entry : Entry} (h : Draws drawing entry) :
    drawing.1 = entry.name := by
  obtain ⟨glyph, -, rfl⟩ := h
  rfl

theorem Draws.array_name_eq {drawing : String × String} {entry : Entry} (h : Draws drawing entry) :
    entry.array.name = "data" := by
  obtain ⟨glyph, -, rfl⟩ := h
  rfl

theorem Draws.values_ne_nil {drawing : String × String} {entry : Entry} (h : Draws drawing entry) :
    entry.array.values ≠ [] := by
  obtain ⟨glyph, -, rfl⟩ := h
  intro empty
  have length := congrArg List.length empty
  simp at length

theorem array?_glyph_eq_some_iff (text : String) (array : DataArray) :
    (Content.glyph text).array? = some array ↔
      ∃ glyph, Glyph.parse text = .ok glyph ∧ glyphArray glyph = array := by
  rw [Content.array?]
  cases Glyph.parse text <;> simp [Except.toOption]

theorem entries?_eq_some_iff (drawings : List (String × String)) (entries : List Entry) :
    entries? (drawings.map fun drawing => (drawing.1, .glyph drawing.2)) = some entries ↔
      List.Forall₂ Draws drawings entries := by
  induction drawings generalizing entries with
  | nil =>
    rw [List.forall₂_nil_left_iff, List.map_nil, entries?, List.mapM_nil]
    constructor
    · intro h
      exact (Option.some.inj h).symm
    · rintro rfl
      rfl
  | cons drawing drawings ih =>
    rw [List.map_cons, entries?_cons_eq_some_iff, List.forall₂_cons_left_iff]
    simp only [ih, array?_glyph_eq_some_iff]
    constructor
    · rintro ⟨_, others, ⟨glyph, parsed, rfl⟩, hs, rfl⟩
      exact ⟨_, others, ⟨glyph, parsed, rfl⟩, hs, rfl⟩
    · rintro ⟨_, others, ⟨glyph, parsed, rfl⟩, hs, rfl⟩
      exact ⟨_, others, ⟨glyph, parsed, rfl⟩, hs, rfl⟩

theorem exists_draws_iff (drawings : List (String × String)) :
    (∃ entries, List.Forall₂ Draws drawings entries) ↔
      ∀ drawing ∈ drawings, ∃ glyph, Glyph.parse drawing.2 = .ok glyph := by
  induction drawings with
  | nil => simp
  | cons drawing drawings ih =>
    simp only [List.forall₂_cons_left_iff, List.forall_mem_cons, ← ih]
    constructor
    · rintro ⟨_, _, others, ⟨glyph, parsed, -⟩, hs, -⟩
      exact ⟨⟨glyph, parsed⟩, others, hs⟩
    · rintro ⟨⟨glyph, parsed⟩, others, hs⟩
      exact ⟨_, _, others, ⟨glyph, parsed, rfl⟩, hs, rfl⟩

theorem map_name_of_draws {drawings : List (String × String)} {entries : List Entry}
    (drawn : List.Forall₂ Draws drawings entries) :
    drawings.map Prod.fst = entries.map Entry.name :=
  map_eq_of_forall₂ (fun _ _ => Draws.name_eq) drawn

theorem array_name_of_draws {drawings : List (String × String)} {entries : List Entry}
    (drawn : List.Forall₂ Draws drawings entries) : ∀ entry ∈ entries, entry.array.name = "data" :=
  forall_mem_of_forall₂ (P := fun _ => True) (fun _ _ h _ => h.array_name_eq) drawn
    fun _ _ => trivial

/-! ## Which names a table of glyphs needs -/

/-- The names that the entries of a table may have together. -/
structure NamesFit (metadata : Metadata) (names : List String) : Prop where
  identifiers : ∀ name ∈ names, isIdentifier name = true
  distinct : names.Pairwise fun a b => eqIgnoringCase a b = false
  unreserved : metadata.kind = .enumerated → ∀ name ∈ names,
    eqIgnoringCase name countWord = false ∧ eqIgnoringCase name enumWord = false

/-- All drawings have one array name, so only the names of the entries count. -/
theorem wellNamed_iff_of_draws (metadata : Metadata) {drawings : List (String × String)}
    {entries : List Entry} (drawn : List.Forall₂ Draws drawings entries) :
    WellNamed ⟨metadata, entries⟩ ↔
      isIdentifier metadata.name = true ∧ isIdentifier metadata.symbolPrefix = true ∧
        NamesFit metadata (drawings.map Prod.fst) := by
  rw [map_name_of_draws drawn]
  have data := array_name_of_draws drawn
  constructor
  · intro h
    refine ⟨h.name, h.symbolPrefix, ⟨?_, ?_, ?_⟩⟩
    · exact List.forall_mem_map.2 h.entryNames
    · exact List.pairwise_map.2 h.distinctNames
    · intro kind
      refine List.forall_mem_map.2 fun entry mem => ?_
      obtain ⟨notCount, notEnum⟩ := h.unreserved kind entry mem
      exact ⟨(symbol_ne_symbol_iff _ _ _).1 notCount, (symbol_ne_symbol_iff _ _ _).1 notEnum⟩
  · rintro ⟨name, symbolPrefix, fit⟩
    have apart := List.pairwise_map.1 fit.distinct
    constructor
    case name => exact name
    case symbolPrefix => exact symbolPrefix
    case entryNames => exact List.forall_mem_map.1 fit.identifiers
    case arrayNames =>
      intro entry mem
      rw [data entry mem]
      decide
    case filled =>
      exact forall_mem_of_forall₂ (P := fun _ => True) (fun _ _ h _ => h.values_ne_nil) drawn
        fun _ _ => trivial
    case distinctNames => exact apart
    case distinctSymbols =>
      refine List.pairwise_map.2 (apart.imp fun differ => ?_)
      exact (symbol_ne_symbol_iff _ _ _).2 differ
    case distinctDataNames =>
      refine List.pairwise_map.2 (apart.imp_of_mem fun {a b} memA memB differ same => ?_)
      rw [dataName, dataName, Metadata.dataName, Metadata.dataName, dataName_eq_dataName_iff,
        data a memA, data b memB, eqIgnoringCase_append_right, eqIgnoringCase_append_right,
        differ] at same
      cases same
    case unreserved =>
      intro kind entry mem
      obtain ⟨notCount, notEnum⟩ := List.forall_mem_map.1 (fit.unreserved kind) entry mem
      exact ⟨(symbol_ne_symbol_iff _ _ _).2 notCount, (symbol_ne_symbol_iff _ _ _).2 notEnum⟩

/-- What drawings need to make a table. -/
structure Drawable (metadata : Metadata) (drawings : List (String × String)) : Prop where
  name : isIdentifier metadata.name = true
  symbolPrefix : isIdentifier metadata.symbolPrefix = true
  filled : drawings ≠ []
  texts : ∀ drawing ∈ drawings, ∃ glyph, Glyph.parse drawing.2 = .ok glyph
  names : NamesFit metadata (drawings.map Prod.fst)

theorem NamesFit.perm {metadata : Metadata} {names others : List String}
    (h : NamesFit metadata names) (same : names.Perm others) : NamesFit metadata others := by
  refine ⟨?_, ?_, ?_⟩
  · exact fun name mem => h.identifiers name (same.mem_iff.2 mem)
  · refine (same.pairwise_iff fun {a b} differ => ?_).1 h.distinct
    rwa [eqIgnoringCase_comm]
  · exact fun kind name mem => h.unreserved kind name (same.mem_iff.2 mem)

theorem Drawable.perm {metadata : Metadata} {drawings others : List (String × String)}
    (h : Drawable metadata drawings) (same : drawings.Perm others) : Drawable metadata others := by
  refine ⟨h.name, h.symbolPrefix, ?_, ?_, h.names.perm (same.map Prod.fst)⟩
  · rintro rfl
    exact h.filled same.eq_nil
  · exact fun drawing mem => h.texts drawing (same.mem_iff.2 mem)

theorem ofGlyphs_eq_ok_iff (metadata : Metadata) (drawings : List (String × String))
    (table : Table) :
    (ofGlyphs metadata drawings).outcome = .ok table ↔
      table.metadata = metadata ∧ List.Forall₂ Draws drawings table.entries ∧ table.WellNamed ∧
        table.entries ≠ [] := by
  rw [ofGlyphs, ofContents_eq_ok_iff, entries?_eq_some_iff]

theorem exists_ofGlyphs_eq_ok_iff (metadata : Metadata) (drawings : List (String × String)) :
    (∃ table, (ofGlyphs metadata drawings).outcome = .ok table) ↔ Drawable metadata drawings := by
  simp only [ofGlyphs_eq_ok_iff]
  constructor
  · rintro ⟨⟨_, entries⟩, rfl, drawn, named, filled⟩
    obtain ⟨name, symbolPrefix, fit⟩ := (wellNamed_iff_of_draws _ drawn).1 named
    refine ⟨name, symbolPrefix, ?_, (exists_draws_iff drawings).1 ⟨_, drawn⟩, fit⟩
    rintro rfl
    exact filled (List.forall₂_nil_left_iff.1 drawn)
  · intro h
    obtain ⟨entries, drawn⟩ := (exists_draws_iff drawings).2 h.texts
    have named := (wellNamed_iff_of_draws metadata drawn).2 ⟨h.name, h.symbolPrefix, h.names⟩
    refine ⟨⟨metadata, entries⟩, rfl, drawn, named, ?_⟩
    rintro rfl
    exact h.filled (List.forall₂_nil_right_iff.1 drawn)

/-! ## What stands in the way of a table -/

namespace Builder

/-- Inserts the drawings one after the other; the first error ends it. -/
def insertAll (b : Builder) (drawings : List (String × String)) : Logged TableError Builder :=
  drawings.foldlM (fun b drawing => b.insertGlyph drawing.1 drawing.2) b

/-- A drawing is one kind of content. -/
theorem insertAll_eq_foldlM_add (b : Builder) (drawings : List (String × String)) :
    b.insertAll drawings =
      (drawings.map fun drawing => (drawing.1, Content.glyph drawing.2)).foldlM
        (fun b content => b.add content.1 content.2) b := by
  rw [List.foldlM_map]
  rfl

theorem after_of_insertAll {b full : Builder} {drawings : List (String × String)}
    (h : (b.insertAll drawings).outcome = .ok full) :
    b.after (drawings.map fun drawing => .add drawing.1 (.glyph drawing.2)) = full := by
  induction drawings generalizing b with
  | nil => exact Except.ok.inj h
  | cons drawing drawings ih =>
    rw [insertAll, List.foldlM_cons, Logged.outcome_bind_eq_ok_iff] at h
    obtain ⟨b', first, others⟩ := h
    have step : (b.step (.add drawing.1 (.glyph drawing.2))).after = b' := by
      simp [Builder.step, Report.ofAdd, add, first]
    rw [List.map_cons, after, step]
    exact ih others

theorem new_eq_error_iff (metadata : Metadata) (error : TableError) :
    Builder.new metadata = .error error ↔
      (isIdentifier metadata.name = false ∧
        error = .invalidIdentifier metadata.name metadata.name) ∨
      (isIdentifier metadata.name = true ∧ isIdentifier metadata.symbolPrefix = false ∧
        error = .invalidIdentifier metadata.name metadata.symbolPrefix) := by
  unfold Builder.new unusableName?
  cases hn : isIdentifier metadata.name <;> cases hp : isIdentifier metadata.symbolPrefix <;>
    simp [hn, hp, eq_comm]

theorem build_eq_error_iff (b : Builder) (error : TableError) :
    b.build.outcome = .error error ↔ b.entries = [] ∧ error = .empty b.metadata.name := by
  rw [outcome_build]
  by_cases empty : b.entries = [] <;> simp [empty, eq_comm]

end Builder

/-- A new builder has let in all the drawings. -/
def Inserted (metadata : Metadata) (drawings : List (String × String)) (b : Builder) : Prop :=
  ∃ start, Builder.new metadata = .ok start ∧ (start.insertAll drawings).outcome = .ok b

theorem Inserted.reachable {metadata : Metadata} {drawings : List (String × String)} {b : Builder}
    (h : Inserted metadata drawings b) : b.Reachable := by
  obtain ⟨start, begun, inserted⟩ := h
  exact ⟨metadata, start, _, begun, after_of_insertAll inserted⟩

theorem Inserted.draws {metadata : Metadata} {drawings : List (String × String)} {b : Builder}
    (h : Inserted metadata drawings b) :
    b.metadata = metadata ∧ List.Forall₂ Draws drawings b.entries := by
  obtain ⟨start, begun, inserted⟩ := h
  obtain ⟨-, -, rfl⟩ := (new_eq_ok_iff metadata start).1 begun
  rw [insertAll_eq_foldlM_add] at inserted
  obtain ⟨entries, hs, made, -⟩ :=
    (exists_foldlM_add_iff (sound_of_new begun) _ b.table).1 ⟨b, rfl, inserted⟩
  rw [List.nil_append] at made
  have same : b.entries = entries := congrArg Table.entries made
  exact ⟨congrArg Table.metadata made, same ▸ (entries?_eq_some_iff drawings entries).1 hs⟩

/-- What keeps drawings from making a table, and what is then reported. -/
inductive Hindrance (metadata : Metadata) (drawings : List (String × String)) : TableError → Prop
  | name (bad : isIdentifier metadata.name = false) :
    Hindrance metadata drawings (.invalidIdentifier metadata.name metadata.name)
  | symbolPrefix (name : isIdentifier metadata.name = true)
    (bad : isIdentifier metadata.symbolPrefix = false) :
    Hindrance metadata drawings (.invalidIdentifier metadata.name metadata.symbolPrefix)
  | empty (name : isIdentifier metadata.name = true)
    (symbolPrefix : isIdentifier metadata.symbolPrefix = true) (none : drawings = []) :
    Hindrance metadata drawings (.empty metadata.name)
  | drawing (front : List (String × String)) (drawing : String × String)
    (rest : List (String × String)) (b : Builder) (error : TableError)
    (split : drawings = front ++ drawing :: rest) (before : Inserted metadata front b)
    (refused : (b.insertGlyph drawing.1 drawing.2).outcome = .error error) :
    Hindrance metadata drawings error

/-- A table of glyphs is built like any other, entry by entry. -/
theorem ofGlyphs_eq_insertAll (metadata : Metadata) (drawings : List (String × String)) :
    ofGlyphs metadata drawings =
      (do
        let start ← Logged.ofExcept (Builder.new metadata)
        let full ← start.insertAll drawings
        full.build) := by
  simp only [insertAll_eq_foldlM_add]
  rfl

theorem ofGlyphs_eq_error_iff (metadata : Metadata) (drawings : List (String × String))
    (error : TableError) :
    (ofGlyphs metadata drawings).outcome = .error error ↔
      Hindrance metadata drawings error := by
  rw [ofGlyphs_eq_insertAll]
  simp only [Logged.outcome_bind_eq_error_iff, Logged.ofExcept]
  constructor
  · rintro (failed | ⟨start, begun, failed | ⟨full, inserted, failed⟩⟩)
    · obtain ⟨bad, rfl⟩ | ⟨name, bad, rfl⟩ := (new_eq_error_iff metadata error).1 failed
      · exact .name bad
      · exact .symbolPrefix name bad
    · obtain ⟨front, drawing, rest, b, split, before, refused⟩ :=
        (Logged.outcome_foldlM_eq_error_iff _ start drawings error).1 failed
      exact .drawing front drawing rest b error split ⟨start, begun, before⟩ refused
    · obtain ⟨none, rfl⟩ := (build_eq_error_iff full error).1 failed
      obtain ⟨same, drawn⟩ := Inserted.draws ⟨start, begun, inserted⟩
      obtain ⟨name, symbolPrefix, -⟩ := (new_eq_ok_iff metadata start).1 begun
      rw [same]
      rw [none] at drawn
      exact .empty name symbolPrefix (List.forall₂_nil_right_iff.1 drawn)
  · intro h
    cases h with
    | name bad => exact .inl ((new_eq_error_iff metadata _).2 (.inl ⟨bad, rfl⟩))
    | symbolPrefix name bad =>
      exact .inl ((new_eq_error_iff metadata _).2 (.inr ⟨name, bad, rfl⟩))
    | empty name symbolPrefix none =>
      subst none
      have begun := (new_eq_ok_iff metadata _).2 ⟨name, symbolPrefix, rfl⟩
      exact .inr ⟨_, begun, .inr ⟨_, rfl, (build_eq_error_iff _ _).2 ⟨rfl, rfl⟩⟩⟩
    | drawing front drawing rest b error split before refused =>
      obtain ⟨start, begun, inserted⟩ := before
      refine .inr ⟨start, begun, .inl ?_⟩
      exact (Logged.outcome_foldlM_eq_error_iff _ start drawings error).2
        ⟨front, drawing, rest, b, split, inserted, refused⟩

/-- A glyph whose data name is taken has its symbol taken as well, and that is looked at first. -/
theorem not_newDataName_of_draws {table : Table} {drawings : List (String × String)}
    (drawn : List.Forall₂ Draws drawings table.entries) {drawing : String × String} {entry : Entry}
    (draws : Draws drawing entry) {rule : Rule} {error : TableError}
    (breach : FirstBreach table entry rule error) : rule ≠ .newDataName := by
  rintro rfl
  cases breach.breach with
  | newDataName first mem same =>
    rw [array_name_of_draws drawn first mem, draws.array_name_eq, eqIgnoringCase_append_right,
      eqIgnoringCase_append_right] at same
    exact breach.kept .newSymbol (by decide) _ (.newSymbol first mem same)

/-- **When drawings make a table, which table, and what is reported otherwise.** -/
theorem ofGlyphs_outcome (metadata : Metadata) (drawings : List (String × String)) :
    ((∃ table, (ofGlyphs metadata drawings).outcome = .ok table) ↔ Drawable metadata drawings) ∧
      (∀ others, drawings.Perm others →
        ((∃ table, (ofGlyphs metadata others).outcome = .ok table) ↔
          ∃ table, (ofGlyphs metadata drawings).outcome = .ok table)) ∧
      (∀ table, (ofGlyphs metadata drawings).outcome = .ok table →
        table.metadata = metadata ∧ List.Forall₂ Draws drawings table.entries) ∧
      (∀ error, (ofGlyphs metadata drawings).outcome = .error error ↔
        Hindrance metadata drawings error) ∧
      ∀ front drawing b error, Inserted metadata front b →
        (b.insertGlyph drawing.1 drawing.2).outcome = .error error →
        (∀ rest, (ofGlyphs metadata (front ++ drawing :: rest)).outcome = .error error) ∧
          ((∃ shape, Glyph.parse drawing.2 = .error shape ∧
              .malformedGlyph metadata.name drawing.1 shape = error) ∨
            ∃ entry rule, Draws drawing entry ∧ FirstBreach b.table entry rule error ∧
              rule ≠ .newDataName) := by
  refine ⟨exists_ofGlyphs_eq_ok_iff metadata drawings, ?_, ?_, ?_, ?_⟩
  · intro others same
    rw [exists_ofGlyphs_eq_ok_iff, exists_ofGlyphs_eq_ok_iff]
    exact ⟨fun h => h.perm same.symm, fun h => h.perm same⟩
  · intro table made
    obtain ⟨same, drawn, -, -⟩ := (ofGlyphs_eq_ok_iff metadata drawings table).1 made
    exact ⟨same, drawn⟩
  · exact ofGlyphs_eq_error_iff metadata drawings
  · intro front drawing b error before refused
    constructor
    · intro rest
      exact (ofGlyphs_eq_error_iff metadata _ error).2
        (.drawing front drawing rest b error rfl before refused)
    · obtain ⟨same, drawn⟩ := before.draws
      obtain malformed | ⟨glyph, rule, parsed, breach⟩ :=
        (before.reachable.sound.insertGlyph_eq_error_iff drawing.1 drawing.2 error).1 refused
      · exact .inl (same ▸ malformed)
      · have draws : Draws drawing ⟨drawing.1, glyphArray glyph⟩ := ⟨glyph, parsed, rfl⟩
        exact .inr ⟨_, rule, draws, breach, not_newDataName_of_draws drawn draws breach⟩

/-- A builder that has let one drawing in. -/
def dotted : Builder :=
  Builder.push { metadata := trialMetadata } "dot" (glyphArray (Glyph.drawn [['X']]))

/-- Two drawings make a table in either order. A name that comes again in another letter case ends it
on account of its symbol, whatever comes after it. -/
theorem ofGlyphs_outcome_dotted :
    (∃ table, (ofGlyphs trialMetadata [("b", Glyph.corner), ("a", Glyph.corner)]).outcome =
        .ok table) ∧
      Inserted trialMetadata [("dot", Glyph.corner)] dotted ∧
      ∀ rest, (ofGlyphs trialMetadata
        (("dot", Glyph.corner) :: ("Dot", Glyph.corner) :: rest)).outcome =
          .error (.collision "t" "dot" "Dot" "T_DOT") := by
  have parsed : Glyph.parse Glyph.corner = .ok (Glyph.drawn [['X']]) := by decide +kernel
  have added : (Builder.insertGlyph { metadata := trialMetadata } "dot" Glyph.corner).outcome =
      .ok dotted := by
    rw [insertGlyph, parsed]
    cbv
  have before : Inserted trialMetadata [("dot", Glyph.corner)] dotted :=
    ⟨_, by cbv, (Logged.outcome_bind_eq_ok_iff _ _ _).2 ⟨dotted, added, rfl⟩⟩
  have refused : (dotted.insertGlyph "Dot" Glyph.corner).outcome =
      .error (.collision "t" "dot" "Dot" "T_DOT") := by
    rw [insertGlyph, parsed]
    cbv
  refine ⟨?_, before, ?_⟩
  · obtain ⟨made, order, -⟩ :=
      ofGlyphs_outcome trialMetadata [("a", Glyph.corner), ("b", Glyph.corner)]
    refine (order _ (List.Perm.swap _ _ [])).2 (made.2 ⟨by decide, by decide, by simp, ?_, ?_⟩)
    · simpa using ⟨_, parsed⟩
    · exact ⟨by decide +kernel, by decide +kernel, by decide +kernel⟩
  · obtain ⟨-, -, -, -, reported⟩ := ofGlyphs_outcome trialMetadata []
    exact (reported _ ("Dot", Glyph.corner) _ _ before refused).1

end Table

end GlyphTables
