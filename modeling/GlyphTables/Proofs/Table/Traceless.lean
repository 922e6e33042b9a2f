import GlyphTables.Table.Editing
import GlyphTables.Proofs.Table.Run

/-!
# Steps that leave no trace

A step that fails, or that makes a table, leaves the builder as it was. So it can be left out of a
session, and nothing that is seen of the other steps changes.

* `run_session` : a session on one builder shows what the run of its steps reports;
* `step_grows`  : an addition that succeeds adds one entry and records it once, nothing else does;
* `transcript_of_pruned` : without some idle steps, the others look as before;
* `session_traceless`    : all of it, for every session.
-/

namespace GlyphTables.Table.Builder

/-! ## Sessions -/

def Report.sight (report : Report) : Sight :=
  ⟨report.result.outcome, report.after⟩

/-- Editing in place gives the reports of the run and leaves its builder and its log. -/
theorem run_session (b : Builder) (records : List Log.Record) (steps : List Step) :
    (session steps).run ⟨b, records⟩ =
      ((b.run steps).map Report.sight,
        ⟨b.after steps, records ++ (b.run steps).flatMap fun report => report.result.records⟩) := by
  induction steps generalizing b records with
  | nil =>
    change ([], (⟨b, records⟩ : Bench)) = ([], ⟨b, records ++ []⟩)
    rw [List.append_nil]
  | cons s steps ih =>
    have others := ih (b.step s).after (records ++ (b.step s).result.records)
    unfold session
    rw [StateT.run_bind, Edit.run_perform]
    change ((b.step s).sight :: ((session steps).run ⟨(b.step s).after, _⟩).1,
      ((session steps).run ⟨(b.step s).after, _⟩).2) = _
    rw [others, List.append_assoc]
    rfl

/-- The steps of a session on `b`, each with what is seen of it. -/
def transcript (b : Builder) (steps : List Step) : List (Step × Sight) :=
  steps.zip ((session steps).run ⟨b, []⟩).1

/-- What a session on `b` records. -/
def log (b : Builder) (steps : List Step) : List Log.Record :=
  ((session steps).run ⟨b, []⟩).2.records

/-- What a session makes of `b`. -/
def leftBy (b : Builder) (steps : List Step) : Builder :=
  ((session steps).run ⟨b, []⟩).2.builder

theorem transcript_cons (b : Builder) (s : Step) (steps : List Step) :
    b.transcript (s :: steps) = (s, (b.step s).sight) :: (b.step s).after.transcript steps := by
  simp [transcript, run_session, run]

theorem map_fst_transcript (b : Builder) (steps : List Step) :
    (b.transcript steps).map Prod.fst = steps := by
  induction steps generalizing b with
  | nil => rfl
  | cons s steps ih => rw [transcript_cons, List.map_cons, ih]

theorem log_cons (b : Builder) (s : Step) (steps : List Step) :
    b.log (s :: steps) = (b.step s).result.records ++ (b.step s).after.log steps := by
  simp [log, run_session, run]

theorem leftBy_cons (b : Builder) (s : Step) (steps : List Step) :
    b.leftBy (s :: steps) = (b.step s).after.leftBy steps := by
  simp [leftBy, run_session, after]

/-! ## What a step adds -/

/-- The records of insertions; nothing else is recorded at their level. -/
def insertions (records : List Log.Record) : List Log.Record :=
  records.filter fun record => record.level == .trace

/-- The name of the entry that a step has added. -/
def added? : Step × Sight → Option String
  | (.add name _, ⟨.ok _, _⟩) => some name
  | _ => none

theorem records_insert (b : Builder) (name : String) (array : DataArray) :
    (b.insert name array).records =
      match (b.insert name array).outcome with
      | .ok _ => [b.insertRecord name]
      | .error _ => [] := by
  unfold insert
  cases b.objection? name array <;> rfl

theorem records_add (b : Builder) (name : String) (content : Content) :
    (b.add name content).records =
      match (b.add name content).outcome with
      | .ok _ => [b.insertRecord name]
      | .error _ => [] := by
  cases content with
  | array array => exact b.records_insert name array
  | glyph text =>
    simp only [add, insertGlyph]
    cases Glyph.parse text with
    | error error => rfl
    | ok glyph => exact b.records_insert name (glyphArray glyph)

/-- An addition that succeeds adds one entry and one record of it; any other step adds neither. -/
theorem step_grows (b : Builder) (s : Step) :
    (b.step s).after.size = b.size + (added? (s, (b.step s).sight)).toList.length ∧
      insertions (b.step s).result.records =
        (added? (s, (b.step s).sight)).toList.map b.insertRecord := by
  cases s with
  | build =>
    refine ⟨rfl, ?_⟩
    unfold step build
    cases b.entries.isEmpty <;> rfl
  | add name content =>
    have records := b.records_add name content
    cases outcome : (b.add name content).outcome with
    | error error =>
      rw [outcome] at records
      simp [step, Report.ofAdd, Report.sight, outcome, records, Except.map, added?, insertions]
    | ok after =>
      obtain ⟨array, -, -, rfl⟩ := (outcome_add_eq_ok_iff b after name content).1 outcome
      rw [outcome] at records
      simp [step, Report.ofAdd, Report.sight, outcome, records, Except.map, added?, insertions,
        insertRecord, push, size]

theorem insertRecord_step (b : Builder) (s : Step) :
    (b.step s).after.insertRecord = b.insertRecord := by
  funext name
  rw [insertRecord, insertRecord, metadata_step]

/-- The log has one record for each entry that was added. -/
theorem insertions_log (b : Builder) (steps : List Step) :
    insertions (b.log steps) = ((b.transcript steps).filterMap added?).map b.insertRecord := by
  induction steps generalizing b with
  | nil => rfl
  | cons s steps ih =>
    have others := ih (b.step s).after
    rw [insertRecord_step] at others
    rw [log_cons, insertions, List.filter_append, ← insertions, ← insertions, others,
      (b.step_grows s).2, transcript_cons, List.filterMap_cons]
    cases added? (s, (b.step s).sight) <;> rfl

theorem size_of_transcript {b : Builder} {steps : List Step} {i : Nat} {x : Step × Sight}
    (h : (b.transcript steps)[i]? = some x) :
    x.2.after.size = (b.leftBy (steps.take i)).size + (added? x).toList.length := by
  induction steps generalizing b i with
  | nil => cases h
  | cons s steps ih =>
    rw [transcript_cons] at h
    cases i with
    | zero =>
      obtain rfl := Option.some.inj h
      exact (b.step_grows s).1
    | succ i =>
      rw [List.take_succ_cons, leftBy_cons]
      exact ih h

/-! ## Leaving steps out -/

/-- The step made a table, or it failed. -/
def Idle (x : Step × Sight) : Prop :=
  x.1 = .build ∨ ∃ e, x.2.result = .error e

/-- Some of the idle steps are left out. -/
inductive Pruned : List (Step × Sight) → List (Step × Sight) → Prop where
  | nil : Pruned [] []
  | keep (x : Step × Sight) {all kept : List (Step × Sight)} (others : Pruned all kept) :
    Pruned (x :: all) (x :: kept)
  | drop {x : Step × Sight} (idle : Idle x) {all kept : List (Step × Sight)}
    (others : Pruned all kept) : Pruned (x :: all) kept

/-- A step that makes a table or fails leaves the builder as it was. -/
theorem after_step_of_idle {b : Builder} {s : Step} (idle : Idle (s, (b.step s).sight)) :
    (b.step s).after = b := by
  obtain ⟨-, -, same⟩ | ⟨_, _, _, -, -, same⟩ | ⟨entry, he, -, ok, -⟩ := b.step_cases s
  · exact same
  · exact same
  · -- an addition that succeeds is not idle
    obtain rfl | ⟨e, failed⟩ := idle
    · cases he
    · cases ok.symm.trans failed

theorem added?_of_idle {x : Step × Sight} (idle : Idle x) : added? x = none := by
  obtain ⟨s, result, after⟩ := x
  obtain rfl | ⟨e, rfl⟩ := idle
  · rfl
  · cases s <;> rfl

theorem Pruned.filterMap_added? {all kept : List (Step × Sight)} (h : Pruned all kept) :
    all.filterMap added? = kept.filterMap added? := by
  induction h with
  | nil => rfl
  | keep x _ ih => rw [List.filterMap_cons, List.filterMap_cons, ih]
  | drop idle _ ih => rw [List.filterMap_cons_none (added?_of_idle idle), ih]

/-- The steps that are kept report what they reported before. -/
theorem transcript_of_pruned {b : Builder} {steps : List Step} {kept : List (Step × Sight)}
    (h : Pruned (b.transcript steps) kept) : b.transcript (kept.map Prod.fst) = kept := by
  induction steps generalizing b kept with
  | nil =>
    cases h
    rfl
  | cons s steps ih =>
    rw [transcript_cons] at h
    cases h with
    | keep _ others => rw [List.map_cons, transcript_cons, ih others]
    | drop idle others =>
      rw [after_step_of_idle idle] at others
      exact ih others

/-- **Failures and tables leave no trace.** Without some of the idle steps of a session, the other
steps yield the same and leave the same, and the same insertions are recorded. The entries grow by one
with each addition that succeeds and with nothing else, and each such addition is recorded once, in
order. -/
theorem session_traceless (b : Builder) (steps : List Step) :
    (b.transcript steps).map Prod.fst = steps ∧
    (∀ kept, Pruned (b.transcript steps) kept →
      b.transcript (kept.map Prod.fst) = kept ∧
        insertions (b.log (kept.map Prod.fst)) = insertions (b.log steps)) ∧
    (∀ (i : Nat) (x : Step × Sight), (b.transcript steps)[i]? = some x →
      x.2.after.size = (b.leftBy (steps.take i)).size + (added? x).toList.length) ∧
    insertions (b.log steps) = ((b.transcript steps).filterMap added?).map b.insertRecord := by
  refine ⟨b.map_fst_transcript steps, fun kept pruned => ?_, fun i x => size_of_transcript,
    b.insertions_log steps⟩
  have same := transcript_of_pruned pruned
  refine ⟨same, ?_⟩
  rw [insertions_log, insertions_log, same, pruned.filterMap_added?]

/-- The trial as it looks: an addition, one that fails, and a table of what there is. -/
def trialTranscript : List (Step × Sight) :=
  let full := push { metadata := trialMetadata } "a" trialArray
  [(.add "a" (.array trialArray), ⟨.ok none, full⟩),
    (.add "A" (.array trialArray), ⟨.error (.collision "t" "a" "A" "T_A"), full⟩),
    (.build, ⟨.ok (some full.table), full⟩)]

theorem session_traceless_trial :
    transcript { metadata := trialMetadata } trial = trialTranscript ∧
      Pruned trialTranscript (trialTranscript.take 1) ∧
      transcript { metadata := trialMetadata } (trial.take 1) = trialTranscript.take 1 ∧
      (leftBy { metadata := trialMetadata } (trial.take 1)).size = 1 ∧
      insertions (log { metadata := trialMetadata } trial) =
        [insertRecord { metadata := trialMetadata } "a"] := by
  have shown : transcript { metadata := trialMetadata } trial = trialTranscript := by cbv
  have pruned : Pruned trialTranscript (trialTranscript.take 1) :=
    .keep _ (.drop (.inr ⟨_, rfl⟩) (.drop (.inl rfl) .nil))
  obtain ⟨-, without, grown, recorded⟩ := session_traceless { metadata := trialMetadata } trial
  rw [shown] at without grown recorded
  -- the failing addition leaves the size that the first one has made
  have size := (grown 1 _ rfl).symm
  exact ⟨shown, pruned, (without _ pruned).1, size, recorded⟩

end GlyphTables.Table.Builder
