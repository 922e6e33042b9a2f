import GlyphTables.Proofs.Table.WellNamed

/-!
# Runs of a builder

A run is a list of steps, each of which adds an entry, fails to add one, or makes a table.

* `step_cases`      : what a step can do;
* `table_after`     : a run keeps exactly the entries of the additions that succeeded, in order;
* `run_keeps_sound` : whatever the steps, every builder on the way is sound, and every table on the
  way consists of the entries added before it;
* `built_iff`       : the tables that runs make are exactly the well-named tables with an entry.
-/

namespace GlyphTables.Table

namespace Builder

/-! ## Steps -/

/-- The array that a content comes down to; a text that is no glyph comes down to none. -/
def Content.array? : Content → Option DataArray
  | .array data => some data
  | .glyph text => (Glyph.parse text).toOption.map glyphArray

/-- The entry that a step sets out to add. -/
def Step.entry? : Step → Option Entry
  | .add name content => content.array?.map fun array => ⟨name, array⟩
  | .build => none

theorem outcome_add_eq_ok_iff (b b' : Builder) (name : String) (content : Content) :
    (b.add name content).outcome = .ok b' ↔
      ∃ array, content.array? = some array ∧ b.objection? name array = none ∧
        b' = b.push name array := by
  have insert_eq_ok : ∀ array, (b.insert name array).outcome = .ok b' ↔
      b.objection? name array = none ∧ b' = b.push name array := by
    intro array
    rw [outcome_insert]
    cases b.objection? name array <;> simp [eq_comm]
  cases content with
  | array array => simp [add, Content.array?, insert_eq_ok]
  | glyph text =>
    simp only [add, insertGlyph, Content.array?]
    cases Glyph.parse text with
    | error e => simp [Logged.fail, Except.toOption]
    | ok glyph => simp [Except.toOption, insert_eq_ok]

/-- A step makes a table of what there is, fails and leaves the builder alone, or lets its entry
in. -/
theorem step_cases (b : Builder) (s : Step) :
    (s = .build ∧ (b.step s).result.outcome = b.build.outcome.map some ∧ (b.step s).after = b) ∨
    (∃ name content e, s = .add name content ∧ (b.step s).result.outcome = .error e ∧
      (b.step s).after = b) ∨
    (∃ entry, s.entry? = some entry ∧ b.objection? entry.name entry.array = none ∧
      (b.step s).result.outcome = .ok none ∧ (b.step s).after = b.push entry.name entry.array) := by
  cases s with
  | build => exact .inl ⟨rfl, rfl, rfl⟩
  | add name content =>
    right
    cases h : (b.add name content).outcome with
    | error e =>
      refine .inl ⟨name, content, e, rfl, ?_, ?_⟩ <;> simp [step, Report.ofAdd, h, Except.map]
    | ok b' =>
      obtain ⟨array, ha, free, rfl⟩ := (outcome_add_eq_ok_iff b b' name content).1 h
      refine .inr ⟨⟨name, array⟩, by simp [Step.entry?, ha], free, ?_, ?_⟩ <;>
        simp [step, Report.ofAdd, h, Except.map]

/-- No step leaves a builder that breaks a rule. -/
theorem Sound.step {b : Builder} (h : b.Sound) (s : Step) : (b.step s).after.Sound := by
  obtain ⟨-, -, same⟩ | ⟨_, _, _, -, -, same⟩ | ⟨entry, -, free, -, grown⟩ := b.step_cases s
  · rwa [same]
  · rwa [same]
  · rw [grown]
    exact h.push free

theorem metadata_step (b : Builder) (s : Step) : (b.step s).after.metadata = b.metadata := by
  obtain ⟨-, -, same⟩ | ⟨_, _, _, -, -, same⟩ | ⟨_, -, -, -, grown⟩ := b.step_cases s
  · rw [same]
  · rw [same]
  · rw [grown]
    rfl

/-! ## Runs -/

/-- The builder that the steps lead to. -/
def after (b : Builder) : List Step → Builder
  | [] => b
  | s :: steps => (b.step s).after.after steps

/-- No list of steps does either. -/
theorem Sound.after {b : Builder} (h : b.Sound) (steps : List Step) : (b.after steps).Sound := by
  induction steps generalizing b with
  | nil => exact h
  | cons s steps ih => exact ih (h.step s)

theorem Sound.after_add {b : Builder} (h : b.Sound) {entry : Entry} (free : b.table.Admits entry) :
    b.after [.add entry.name (.array entry.array)] = b.push entry.name entry.array := by
  have ok := b.outcome_insert entry.name entry.array
  rw [(h.objection?_eq_none_iff entry.name entry.array).2 free] at ok
  simp [Builder.after, Builder.step, add, Report.ofAdd, ok]

theorem build_eq_ok_iff (b : Builder) (table : Table) :
    b.build.outcome = .ok table ↔ b.entries ≠ [] ∧ b.table = table := by
  rw [outcome_build, Builder.table]
  by_cases h : b.entries = [] <;> simp [h]

theorem after_append (b : Builder) (steps more : List Step) :
    b.after (steps ++ more) = (b.after steps).after more := by
  induction steps generalizing b with
  | nil => rfl
  | cons s steps ih => exact ih (b.step s).after

theorem getElem?_run (b : Builder) (steps : List Step) (i : Nat) :
    (b.run steps)[i]? = steps[i]?.map (b.after (steps.take i)).step := by
  induction steps generalizing b i with
  | nil => rfl
  | cons s steps ih =>
    cases i with
    | zero => rfl
    | succ i => exact ih (b.step s).after i

theorem take_run (b : Builder) (steps : List Step) (i : Nat) :
    (b.run steps).take i = b.run (steps.take i) := by
  induction steps generalizing b i with
  | nil => rw [List.take_nil, run, List.take_nil]
  | cons s steps ih =>
    cases i with
    | zero => rfl
    | succ i => simp only [run, List.take_succ_cons, ih]

/-- The entry that a step has added, if its report tells of success. -/
def Report.added? (report : Report) (s : Step) : Option Entry :=
  match report.result.outcome with
  | .ok _ => s.entry?
  | .error _ => none

/-- The entries that the steps have added, as their reports tell. -/
def added (steps : List Step) (reports : List Report) : List Entry :=
  (List.zipWith (fun s report => report.added? s) steps reports).reduceOption

/-- A step adds the entry it reports, if it reports one. -/
theorem entries_step (b : Builder) (s : Step) :
    (b.step s).after.entries = b.entries ++ ((b.step s).added? s).toList := by
  obtain ⟨rfl, -, same⟩ | ⟨_, _, e, -, failed, same⟩ | ⟨entry, he, -, ok, grown⟩ := b.step_cases s
  · rw [same, Report.added?]
    split <;> simp [Step.entry?]
  · simp [same, Report.added?, failed]
  · simp [grown, Report.added?, ok, he, push]

/-- The entries of a run are those that its reports have added, in order. -/
theorem table_after (b : Builder) (steps : List Step) :
    (b.after steps).table = ⟨b.metadata, b.entries ++ added steps (b.run steps)⟩ := by
  induction steps generalizing b with
  | nil => simp [after, table, added]
  | cons s steps ih =>
    rw [after, ih, metadata_step, entries_step]
    simp only [added, run, List.zipWith_cons_cons]
    cases (b.step s).added? s <;> simp

/-- Only a step that asks for a table yields one, and it is the table of all entries. -/
theorem step_eq_table_iff (b : Builder) (s : Step) (table : Table) :
    (b.step s).result.outcome = .ok (some table) ↔
      s = .build ∧ b.entries ≠ [] ∧ b.table = table := by
  cases s with
  | build =>
    rw [← build_eq_ok_iff]
    simp only [step, true_and]
    cases b.build.outcome <;> simp [Except.map]
  | add name content =>
    simp only [step, Report.ofAdd, reduceCtorEq, false_and, iff_false]
    cases (b.add name content).outcome <;> simp [Except.map]

theorem Sound.of_mem_run {b : Builder} (h : b.Sound) {steps : List Step} {report : Report}
    (hr : report ∈ b.run steps) : report.after.Sound := by
  obtain ⟨i, hi⟩ := List.mem_iff_getElem?.1 hr
  rw [getElem?_run] at hi
  obtain ⟨s, -, rfl⟩ := Option.map_eq_some_iff.1 hi
  exact (h.after _).step s

theorem table_of_run {b : Builder} {steps : List Step} {i : Nat} {report : Report} {table : Table}
    (hi : (b.run steps)[i]? = some report) (made : report.result.outcome = .ok (some table)) :
    (b.after (steps.take i)).entries ≠ [] ∧ (b.after (steps.take i)).table = table := by
  rw [getElem?_run] at hi
  obtain ⟨s, -, rfl⟩ := Option.map_eq_some_iff.1 hi
  exact ((step_eq_table_iff _ s table).1 made).2

/-- **Every run keeps the naming rules.** From a builder that starts on `metadata`, every builder on
the way is sound, and every table on the way has exactly the entries added before it, in order. -/
theorem run_keeps_sound {metadata : Metadata} {b : Builder}
    (start : Builder.new metadata = .ok b) (steps : List Step) :
    b.Sound ∧ (∀ report ∈ b.run steps, report.after.Sound) ∧
      ∀ (i : Nat) (report : Report) (table : Table), (b.run steps)[i]? = some report →
        report.result.outcome = .ok (some table) →
        table.metadata = metadata ∧
          table.entries = added (steps.take i) ((b.run steps).take i) := by
  have sound := sound_of_new start
  obtain ⟨-, -, fresh⟩ := (new_eq_ok_iff metadata b).1 start
  refine ⟨sound, fun _ => sound.of_mem_run, ?_⟩
  intro i report table hi made
  obtain ⟨-, rfl⟩ := table_of_run hi made
  rw [table_after, take_run, fresh]
  exact ⟨rfl, List.nil_append _⟩

def trialMetadata : Metadata where
  name := "t"
  symbolPrefix := "T"
  kind := .enumerated
  elementType := "char * const"
  useAliases := false
  includes := []

def trialArray : DataArray where
  name := "v"
  elementType := "char"
  values := [4, -1]

/-- An entry, the same entry in upper case, and a table of what went in. -/
def trial : List Step :=
  [.add "a" (.array trialArray), .add "A" (.array trialArray), .build]

theorem run_keeps_sound_trial :
    Builder.new trialMetadata = .ok { metadata := trialMetadata } ∧
      ∃ report table, (Builder.run { metadata := trialMetadata } trial)[2]? = some report ∧
        report.result.outcome = .ok (some table) ∧ table.entries = [⟨"a", trialArray⟩] := by
  have start : Builder.new trialMetadata = .ok { metadata := trialMetadata } := by cbv
  obtain ⟨-, -, tables⟩ := run_keeps_sound start trial
  have made : ((Builder.run { metadata := trialMetadata } trial)[2]?).map (·.result.outcome) =
      some (.ok (some ⟨trialMetadata, [⟨"a", trialArray⟩]⟩)) := by cbv
  obtain ⟨report, hi, hr⟩ := Option.map_eq_some_iff.1 made
  have same : added (trial.take 2) ((Builder.run { metadata := trialMetadata } trial).take 2) =
      [⟨"a", trialArray⟩] := by cbv
  exact ⟨start, report, _, hi, hr, same ▸ (tables 2 report _ hi hr).2⟩

end Builder

/-! ## The tables that runs make -/

/-- Some run of a builder makes the table. -/
def Built (table : Table) : Prop :=
  ∃ (metadata : Metadata) (b : Builder) (steps : List Builder.Step) (report : Builder.Report),
    Builder.new metadata = .ok b ∧ report ∈ b.run steps ∧ report.result.outcome = .ok (some table)

/-- The entries of a well-named table can be added one after the other. -/
theorem exists_after_eq {metadata : Metadata} (entries : List Entry)
    (h : WellNamed ⟨metadata, entries⟩) :
    ∃ steps, (Builder.after { metadata } steps).table = ⟨metadata, entries⟩ := by
  have start := (Builder.new_eq_ok_iff metadata { metadata }).2 ⟨h.name, h.symbolPrefix, rfl⟩
  induction entries using List.reverseRecOn with
  | nil => exact ⟨[], rfl⟩
  | append_singleton entries entry ih =>
    obtain ⟨before, new⟩ := (wellNamed_append_iff ⟨metadata, entries⟩ entry).1 h
    obtain ⟨steps, hs⟩ := ih before
    have sound := (Builder.sound_of_new start).after steps
    refine ⟨steps ++ [.add entry.name (.array entry.array)], ?_⟩
    rw [Builder.after_append, sound.after_add (hs ▸ new), Builder.table_push, hs]
    rfl

/-- **Runs make exactly the well-named tables that have an entry.** -/
theorem built_iff (table : Table) : table.Built ↔ table.WellNamed ∧ table.entries ≠ [] := by
  constructor
  · rintro ⟨metadata, b, steps, report, start, hr, made⟩
    obtain ⟨i, hi⟩ := List.mem_iff_getElem?.1 hr
    obtain ⟨filled, rfl⟩ := Builder.table_of_run hi made
    exact ⟨((Builder.sound_of_new start).after _).wellNamed, filled⟩
  · rintro ⟨h, filled⟩
    obtain ⟨steps, hs⟩ := exists_after_eq table.entries h
    let b : Builder := { metadata := table.metadata }
    have start := (Builder.new_eq_ok_iff table.metadata b).2 ⟨h.name, h.symbolPrefix, rfl⟩
    refine ⟨table.metadata, b, steps ++ [.build], (b.after steps).step .build, start, ?_, ?_⟩
    · refine List.mem_iff_getElem?.2 ⟨steps.length, ?_⟩
      simp [Builder.getElem?_run]
    · refine (Builder.step_eq_table_iff _ _ table).2 ⟨rfl, ?_, hs⟩
      rwa [show (b.after steps).entries = table.entries from congrArg Table.entries hs]

end GlyphTables.Table
