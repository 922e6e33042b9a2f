import GlyphTables.Table.Builder

/-!
# Building in place

A program keeps one builder and changes it: an addition returns at the first check that fails, and
changes the lists one after the other once all checks are passed. What is recorded goes to one log.

* `run_insert`  : an addition that fails at whichever check leaves builder and log as they are;
* `run_perform` : a step in place comes to what `Builder.step` says of it.
-/

namespace GlyphTables.Table.Builder

/-- What the steps work on: the builder as it stands, and what has been recorded. -/
structure Bench where
  builder : Builder
  records : List Log.Record := []

/-- A program that works on the bench and may stop with an error. -/
abbrev Edit := ExceptT TableError (StateM Bench)

namespace Edit

variable {α β : Type}

/-! ## Checks and changes -/

/-- Stops with `error` if something is bad. -/
def refuseIf (bad : Bool) (error : TableError) : Edit Unit :=
  if bad then throw error else pure ()

/-- Stops if an identifier has an owner, and names it. -/
def refuseTaken (owner : Option Entry) (error : Entry → TableError) : Edit Unit :=
  match owner with
  | some first => throw (error first)
  | none => pure ()

def note (record : Log.Record) : Edit Unit :=
  modify fun bench => { bench with records := bench.records ++ [record] }

def change (f : Builder → Builder) : Edit Unit :=
  modify fun bench => { bench with builder := f bench.builder }

theorem run_get_bind (f : Bench → Edit α) (bench : Bench) :
    (get >>= f).run.run bench = (f bench).run.run bench := by
  rfl

theorem run_refuseIf_bind (bad : Bool) (error : TableError) (f : Unit → Edit α) (bench : Bench) :
    (refuseIf bad error >>= f).run.run bench =
      if bad then (.error error, bench) else (f ()).run.run bench := by
  cases bad <;> rfl

theorem run_refuseTaken_bind (owner : Option Entry) (error : Entry → TableError)
    (f : Unit → Edit α) (bench : Bench) :
    (refuseTaken owner error >>= f).run.run bench =
      match owner with
      | some first => (.error (error first), bench)
      | none => (f ()).run.run bench := by
  cases owner <;> rfl

theorem run_note_bind (record : Log.Record) (f : Unit → Edit α) (bench : Bench) :
    (note record >>= f).run.run bench =
      (f ()).run.run { bench with records := bench.records ++ [record] } := by
  rfl

theorem run_change_bind (g : Builder → Builder) (f : Unit → Edit α) (bench : Bench) :
    (change g >>= f).run.run bench =
      (f ()).run.run { bench with builder := g bench.builder } := by
  rfl

/-! ## Additions -/

/-- An addition with its checks in order, and the changes after them. -/
def insert (name : String) (array : DataArray) : Edit Unit := do
  let b := (← get).builder
  let table := b.metadata.name
  forM [name, array.name] fun candidate =>
    refuseIf (!isIdentifier candidate) (.invalidIdentifier table candidate)
  refuseIf array.values.isEmpty (.emptyArray table name)
  refuseIf (b.entries.any fun entry => entry.name == name) (.duplicateName table name)
  let symbol := b.metadata.symbol name
  refuseIf (b.metadata.kind == .enumerated && b.isReserved name) (.reservedName table name)
  refuseTaken (b.owner? b.symbols symbol) fun first => .collision table first.name name symbol
  let dataName := b.metadata.dataName name array
  refuseTaken (b.owner? b.dataNames dataName) fun first =>
    .collision table first.name name dataName
  note (b.insertRecord name)
  change fun b => { b with symbols := b.symbols ++ [symbol] }
  change fun b => { b with dataNames := b.dataNames ++ [dataName] }
  change fun b => { b with entries := b.entries ++ [⟨name, array⟩] }

/-- The addition stops where the first objection is, and has changed nothing by then. -/
theorem run_insert (b : Builder) (records : List Log.Record) (name : String) (array : DataArray) :
    (insert name array).run.run ⟨b, records⟩ =
      match b.objection? name array with
      | some error => (.error error, ⟨b, records⟩)
      | none => (.ok (), ⟨b.push name array, records ++ [b.insertRecord name]⟩) := by
  unfold insert objection?
  simp only [run_get_bind, List.forM_cons, List.forM_nil, bind_assoc, pure_bind,
    run_refuseIf_bind, run_refuseTaken_bind, run_note_bind, run_change_bind]
  iterate 5
    split
    · rfl
  cases b.owner? b.symbols (b.metadata.symbol name) with
  | some first => rfl
  | none =>
    cases b.owner? b.dataNames (b.metadata.dataName name array) with
    | some first => rfl
    | none => rfl

theorem run_insert_eq_insert (b : Builder) (records : List Log.Record) (name : String)
    (array : DataArray) :
    (insert name array).run.run ⟨b, records⟩ =
      match (b.insert name array).outcome with
      | .error error => (.error error, ⟨b, records ++ (b.insert name array).records⟩)
      | .ok after => (.ok (), ⟨after, records ++ (b.insert name array).records⟩) := by
  rw [run_insert, Builder.insert]
  cases b.objection? name array with
  | some error => simp [Logged.fail]
  | none => rfl

/-! ## Steps -/

def insertGlyph (name text : String) : Edit Unit := do
  match Glyph.parse text with
  | .error error => throw (.malformedGlyph (← get).builder.metadata.name name error)
  | .ok glyph => insert name (glyphArray glyph)

def add (name : String) : Content → Edit Unit
  | .array array => insert name array
  | .glyph text => insertGlyph name text

theorem run_add (b : Builder) (records : List Log.Record) (name : String) (content : Content) :
    (add name content).run.run ⟨b, records⟩ =
      match (b.add name content).outcome with
      | .error error => (.error error, ⟨b, records ++ (b.add name content).records⟩)
      | .ok after => (.ok (), ⟨after, records ++ (b.add name content).records⟩) := by
  cases content with
  | array array => exact run_insert_eq_insert b records name array
  | glyph text =>
    simp only [add, insertGlyph, Builder.add, Builder.insertGlyph]
    cases Glyph.parse text with
    | ok glyph => exact run_insert_eq_insert b records name (glyphArray glyph)
    | error error =>
      rw [run_get_bind]
      simp only [Logged.fail, List.append_nil]
      rfl

/-- Makes a table of what there is; the builder stays for more. -/
def build : Edit Table := do
  let b := (← get).builder
  refuseIf b.entries.isEmpty (.empty b.metadata.name)
  note b.buildRecord
  return ⟨b.metadata, b.entries⟩

/-- Takes one step; only building yields a table. -/
def perform : Step → Edit (Option Table)
  | .add name content => do
    add name content
    return none
  | .build => some <$> build

/-- A step in place comes to what its report says. -/
theorem run_perform (b : Builder) (records : List Log.Record) (s : Step) :
    (perform s).run.run ⟨b, records⟩ =
      ((b.step s).result.outcome, ⟨(b.step s).after, records ++ (b.step s).result.records⟩) := by
  cases s with
  | add name content =>
    simp only [perform, step, Report.ofAdd, ExceptT.run_bind, StateT.run_bind, run_add]
    cases (b.add name content).outcome with
    | error error => rfl
    | ok after => rfl
  | build =>
    simp only [perform, step, build, map_bind, run_get_bind, run_refuseIf_bind, Builder.build]
    cases b.entries.isEmpty with
    | true => simp [Logged.fail, Except.map]
    | false => rfl

end Edit

/-! ## Steps on one builder -/

/-- What is seen of a step: its result, and the builder that it leaves. -/
structure Sight where
  result : Except TableError (Option Table)
  after : Builder

/-- Takes the steps on one builder, one after the other and whatever they yield. -/
def session : List Step → StateM Bench (List Sight)
  | [] => pure []
  | s :: steps => do
    let result ← (Edit.perform s).run
    let sight := ⟨result, (← get).builder⟩
    return sight :: (← session steps)

end GlyphTables.Table.Builder
