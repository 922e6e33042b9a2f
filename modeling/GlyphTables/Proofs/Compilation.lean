import GlyphTables.Compilation
import GlyphTables.Proofs.Cpp.Writing
import GlyphTables.Proofs.FileTree
import GlyphTables.Proofs.Library.Assembly

/-!
# What a compilation leaves behind

A compilation can fail at five points: the path can be unusable, and each of the two files may fail
to be opened or to be filled. Which one it is can be told from the tree at the beginning, and from
that what is in the files at the end.

* `confined_writeAll` : nothing is touched but the files that are planned;
* `writeFile_of_canWrite`, `writeFile_of_not_canWrite` : what becomes of one file;
* `source_congr` : writing the header does not change what becomes of the source;
* `run_faithful` : so a compilation says truly what it has done.
-/

namespace GlyphTables

/-- The file at `path` holds the whole text of `draft`. -/
def FileTree.Holds (tree : FileTree) (path : Path) (draft : Cpp.Draft) : Prop :=
  ∃ place text, tree.locate path = .ok place ∧ Cpp.text? draft = some text ∧
    tree.node? place = some (.file (Utf8.encode text))

/-- Why no file can be written at `path`: it cannot be opened, or does not take every byte. -/
inductive FileTree.Blocked (tree : FileTree) (path : Path) : CompileError → Prop where
  | creating {cause : FileError} : tree.create path = .error cause →
      Blocked tree path (.creating path cause)
  | writing {place : Location} {opened : FileTree} {node : FileTree.Node} {bytes : List UInt8} :
      tree.create path = .ok (place, opened) → opened.node? place = some node →
      node.takes bytes = false → Blocked tree path (.writing path .noSpace)

namespace FileTree

variable {tree other : FileTree} {path : Path}

/-- A path whose file cannot be created is blocked by the cause of that. -/
theorem blocked_of_create_error {cause : FileError} (created : tree.create path = .error cause)
    (e : CompileError) : tree.Blocked path e ↔ e = .creating path cause := by
  constructor
  · rintro (created' | ⟨created', -, -⟩)
    · obtain rfl : cause = _ := Except.error.inj (created.symm.trans created')
      rfl
    · cases created.symm.trans created'
  · rintro rfl
    exact .creating created

theorem blocked_of_create_ok {place : Location} {opened : FileTree} {node : Node}
    (created : tree.create path = .ok (place, opened)) (found : opened.node? place = some node)
    (e : CompileError) :
    tree.Blocked path e ↔ (∃ bytes, node.takes bytes = false) ∧ e = .writing path .noSpace := by
  constructor
  · rintro (created' | ⟨created', found', refused⟩)
    · cases created.symm.trans created'
    · obtain ⟨rfl, rfl⟩ := Prod.mk.inj (Except.ok.inj (created.symm.trans created'))
      obtain rfl := Option.some.inj (found.symm.trans found')
      exact ⟨⟨_, refused⟩, rfl⟩
  · rintro ⟨⟨bytes, refused⟩, rfl⟩
    exact .writing created found refused

/-- What blocks a path depends on the node it leads to only. -/
theorem blocked_congr (located : other.locate path = tree.locate path)
    (same : ∀ place, tree.locate path = .ok place → other.node? place = tree.node? place)
    (e : CompileError) : other.Blocked path e ↔ tree.Blocked path e := by
  cases h : tree.locate path with
  | error cause =>
    rw [blocked_of_create_error (create_of_locate_error h),
      blocked_of_create_error (create_of_locate_error (located.trans h))]
  | ok place =>
    have h' := located.trans h
    have same' := same place h
    obtain directory | full | free := isFree_cases tree place
    · rw [blocked_of_create_error (create_of_directory h directory),
        blocked_of_create_error (create_of_directory h' (same'.trans directory))]
    · rw [blocked_of_create_ok (create_of_fullDevice h full) full,
        blocked_of_create_ok (create_of_fullDevice h' (same'.trans full)) (same'.trans full)]
    · have free' : other.IsFree place := by rwa [FileTree.IsFree, same']
      rw [blocked_of_create_ok (create_of_isFree h free) (node?_put_self tree _ free.ne_nil),
        blocked_of_create_ok (create_of_isFree h' free') (node?_put_self other _ free.ne_nil)]

/-- Writing to a path leaves the files at other places as they are. -/
theorem Holds.of_confined {path' : Path} {draft : Cpp.Draft} (h : tree.Holds path draft)
    (changed : tree.Confined [path'] other)
    (apart : ∀ place, tree.locate path = .ok place → tree.locate path' ≠ .ok place) :
    other.Holds path draft := by
  obtain ⟨place, text, located, said, found⟩ := h
  have elsewhere : ∀ p ∈ [path'], tree.locate p ≠ .ok place := fun p mem =>
    List.mem_singleton.1 mem ▸ apart place located
  exact ⟨place, text, changed.directories.locate located, said,
    (changed.frame place elsewhere).trans found⟩

end FileTree

namespace Compilation

variable {tree : FileTree} {path : Path} {place : Location} {draft : Cpp.Draft}

/-! ## Nothing else is touched -/

theorem append_ne_directory {node : FileTree.Node} (h : node ≠ .directory) (bytes : List UInt8) :
    node.append bytes ≠ .directory := by
  cases node <;> simp_all [FileTree.Node.append]

theorem exists_tree_fill (tree : FileTree) (place : Location) (path : Path) (draft : Cpp.Draft) :
    ∃ bytes, (fill tree place path draft).tree =
      tree.put place (((tree.node? place).getD (.file [])).append bytes) := by
  refine ⟨(Cpp.pour ((tree.node? place).getD (.file [])).takes [] draft).written, ?_⟩
  unfold fill
  dsimp only
  split <;> rfl

theorem confined_fill (located : tree.locate path = .ok place)
    (h : tree.node? place ≠ some .directory) (draft : Cpp.Draft) :
    tree.Confined [path] (fill tree place path draft).tree := by
  obtain ⟨bytes, filled⟩ := exists_tree_fill tree place path draft
  rw [filled]
  refine FileTree.confined_put located h (append_ne_directory ?_ bytes)
  cases found : tree.node? place with
  | none => simp
  | some node =>
    rintro rfl
    exact h found

theorem confined_writeFile (tree : FileTree) (path : Path) (draft : Cpp.Draft) :
    tree.Confined [path] (writeFile tree path draft).tree := by
  unfold writeFile
  cases located : tree.locate path with
  | error e =>
    rw [FileTree.create_of_locate_error located]
    exact .refl tree _
  | ok place =>
    obtain h | h | free := FileTree.isFree_cases tree place
    · rw [FileTree.create_of_directory located h]
      exact .refl tree _
    · rw [FileTree.create_of_fullDevice located h]
      exact confined_fill located (by simp [h]) draft
    · -- the file is made empty first and then filled; both times only its place changes
      rw [FileTree.create_of_isFree located free]
      have opened : tree.Confined [path] (tree.put place (.file [])) :=
        FileTree.confined_put located free.node?_ne_directory (by simp)
      have found : (tree.put place (.file [])).node? place ≠ some .directory := by
        simp [FileTree.node?_put_self tree _ free.ne_nil]
      have filled := confined_fill (opened.directories.locate located) found draft
      exact (opened.trans filled).mono (by simp)

section Step

variable {ε α β : Type} {step : Step ε α} (next : FileTree → α → Step ε β)

theorem andThen_of_error {e : ε} (h : step.result.outcome = .error e) :
    (step.andThen next).tree = step.tree ∧ (step.andThen next).result.outcome = .error e := by
  simp [Step.andThen, h]

theorem andThen_of_ok {a : α} (h : step.result.outcome = .ok a) :
    (step.andThen next).tree = (next step.tree a).tree ∧
      (step.andThen next).result.outcome = (next step.tree a).result.outcome := by
  simp [Step.andThen, h]

/-- What comes after a step and changes nothing leaves the tree and the failures of the step. -/
theorem andThen_pure (b : β) :
    (step.andThen fun tree _ => ⟨tree, pure b⟩).tree = step.tree ∧
      (step.andThen fun tree _ => ⟨tree, pure b⟩).result.outcome =
        step.result.outcome.map fun _ => b := by
  cases ended : step.result.outcome with
  | error e => exact andThen_of_error _ ended
  | ok a => exact andThen_of_ok _ ended

theorem confined_andThen {paths paths' : List Path} (h : tree.Confined paths step.tree)
    (h' : ∀ a, step.tree.Confined paths' (next step.tree a).tree) :
    tree.Confined (paths ++ paths') (step.andThen next).tree := by
  cases ended : step.result.outcome with
  | error e =>
    rw [(andThen_of_error next ended).1]
    exact h.mono (List.subset_append_left _ _)
  | ok a =>
    rw [(andThen_of_ok next ended).1]
    exact h.trans (h' a)

end Step

/-- The record of a file changes nothing. -/
theorem writeNoted_eq (tree : FileTree) (path : Path) (draft : Cpp.Draft) :
    (writeNoted (onTree id) path draft tree).tree = (writeFile tree path draft).tree ∧
      (writeNoted (onTree id) path draft tree).result.outcome =
        (writeFile tree path draft).result.outcome := by
  rw [writeNoted_onTree]
  cases ended : (writeFile tree path draft).result.outcome with
  | error e => exact andThen_of_error _ ended
  | ok done => exact andThen_of_ok _ ended

theorem confined_writeAll (tree : FileTree) (files : List (Path × Cpp.Draft)) :
    tree.Confined (files.map Prod.fst) (writeAll (onTree id) files tree).tree := by
  induction files generalizing tree with
  | nil => exact .refl tree _
  | cons file rest ih =>
    obtain ⟨path, draft⟩ := file
    have written := confined_writeFile tree path draft
    rw [← (writeNoted_eq tree path draft).1] at written
    rw [writeAll_onTree]
    exact confined_andThen _ written fun _ => ih _

/-- A run changes the two files at most that are named after its path. -/
theorem confined_run (tree : FileTree) (library : Library) (path : Path) :
    let outputs := OutputPaths.ofPath path
    tree.Confined [outputs.header, outputs.source] (run tree library path).tree := by
  intro outputs
  unfold run carryOut plan
  cases path.baseName? with
  | none => exact .refl tree _
  | some baseName =>
    have written := confined_writeAll tree
      [(outputs.header, Cpp.header library baseName), (outputs.source, Cpp.source library baseName)]
    exact confined_andThen (fun tree _ => ⟨tree, pure outputs⟩) written fun _ => .refl _ []

/-! ## Writing one file -/

variable {text : String}

theorem writeFile_of_isFree (located : tree.locate path = .ok place) (free : tree.IsFree place)
    (said : Cpp.text? draft = some text) :
    writeFile tree path draft =
      ⟨(tree.put place (.file [])).put place (.file (Utf8.encode text)), pure ()⟩ := by
  have found := FileTree.node?_put_self tree (.file []) free.ne_nil
  have takesAll : ∀ bytes, (FileTree.Node.file []).takes bytes = true := fun _ => rfl
  have poured := Cpp.pour_of_takes takesAll said
  rw [writeFile, FileTree.create_of_isFree located free]
  simp only [fill, found, Option.getD_some, poured]
  rfl

theorem writeFile_of_fullDevice (located : tree.locate path = .ok place)
    (h : tree.node? place = some .fullDevice) (said : Cpp.text? draft = some text)
    (nonempty : draft ≠ []) :
    writeFile tree path draft =
      ⟨tree.put place .fullDevice, .fail (.writing path .noSpace)⟩ := by
  have ended : (Cpp.pour FileTree.Node.fullDevice.takes [] draft).ending = .full :=
    Cpp.ending_pour_of_isEmpty said nonempty
  rw [writeFile, FileTree.create_of_fullDevice located h]
  simp only [fill, h, Option.getD_some, ended]
  rfl

theorem writeFile_of_create_error {cause : FileError} (h : tree.create path = .error cause)
    (draft : Cpp.Draft) :
    writeFile tree path draft = ⟨tree, .fail (.creating path cause)⟩ := by
  rw [writeFile, h]

/-- A draft that can be written to a path is there afterwards, in full. -/
theorem writeFile_of_canWrite (can : tree.CanWrite path) (said : Cpp.text? draft = some text) :
    (writeFile tree path draft).result.outcome = .ok () ∧
      (writeFile tree path draft).tree.Holds path draft := by
  obtain ⟨place, located, free⟩ := FileTree.canWrite_iff.1 can
  have stays := (confined_writeFile tree path draft).directories.locate located
  rw [writeFile_of_isFree located free said] at stays ⊢
  exact ⟨rfl, place, text, stays, said, FileTree.node?_put_self _ _ free.ne_nil⟩

/-- A draft that cannot be written changes no node at all. -/
theorem writeFile_of_not_canWrite (cannot : ¬ tree.CanWrite path)
    (said : Cpp.text? draft = some text) (nonempty : draft ≠ []) :
    ∃ e, tree.Blocked path e ∧ (writeFile tree path draft).result.outcome = .error e ∧
      ∀ place, (writeFile tree path draft).tree.node? place = tree.node? place := by
  cases created : tree.create path with
  | error cause =>
    rw [writeFile_of_create_error created]
    exact ⟨_, .creating created, rfl, fun _ => rfl⟩
  | ok opened =>
    cases located : tree.locate path with
    | error e => simp [FileTree.create_of_locate_error located] at created
    | ok place =>
      obtain h | h | free := FileTree.isFree_cases tree place
      · simp [FileTree.create_of_directory located h] at created
      · rw [writeFile_of_fullDevice located h said nonempty]
        have full : FileTree.Node.fullDevice.takes [0] = false := rfl
        exact ⟨_, .writing (FileTree.create_of_fullDevice located h) h full, rfl,
          FileTree.node?_put_of_node? h⟩
      · exact absurd (FileTree.canWrite_iff.2 ⟨place, located, free⟩) cannot

/-! ## The two files -/

variable {library : Library} {baseName : String}

/-- The two files lie in one directory under different names. -/
theorem siblings_outputs (named : path.baseName? = some baseName) :
    ∃ front name name', Path.Parts (OutputPaths.ofPath path).header front name [] ∧
      Path.Parts (OutputPaths.ofPath path).source front name' [] ∧
      name ≠ [Path.dot, Path.dot] ∧ name' ≠ [Path.dot, Path.dot] ∧ name ≠ name' := by
  obtain ⟨name, tail, parts, notAbove, -⟩ := Path.parts_of_baseName? named
  have header : Utf8.encode ".h" = [Path.dot, 0x68] := by decide
  have source : Utf8.encode ".cc" = [Path.dot, 0x63, 0x63] := by decide
  refine ⟨_, _, _, parts.extended notAbove (by decide) (by decide),
    parts.extended notAbove (by decide) (by decide), ?_, ?_, ?_⟩
  -- the last letter tells the names apart, also from `..`
  all_goals
    intro same
    have last := congrArg List.getLast? same
    simp [header, source, Path.dot] at last

/-- The header and the source never share a place. -/
theorem apart_outputs (named : path.baseName? = some baseName) (tree : FileTree)
    (place : Location) (located : tree.locate (OutputPaths.ofPath path).header = .ok place) :
    tree.locate (OutputPaths.ofPath path).source ≠ .ok place := by
  obtain ⟨front, name, name', parts, parts', notAbove, notAbove', different⟩ :=
    siblings_outputs named
  intro located'
  exact FileTree.place_ne_of_sibling parts parts' notAbove notAbove' different located located' rfl

/-- What becomes of the source is settled before the header is written. -/
theorem source_congr {other : FileTree} (named : path.baseName? = some baseName)
    (can : tree.CanWrite (OutputPaths.ofPath path).header)
    (changed : tree.Confined [(OutputPaths.ofPath path).header] other) :
    (other.CanWrite (OutputPaths.ofPath path).source ↔
        tree.CanWrite (OutputPaths.ofPath path).source) ∧
      ∀ e, other.Blocked (OutputPaths.ofPath path).source e ↔
        tree.Blocked (OutputPaths.ofPath path).source e := by
  obtain ⟨place, located, -⟩ := FileTree.canWrite_iff.1 can
  obtain ⟨front, name, name', parts, parts', -⟩ := siblings_outputs named
  have located' := FileTree.locate_of_sibling parts parts' changed.directories located
  have same : ∀ place', tree.locate (OutputPaths.ofPath path).source = .ok place' →
      other.node? place' = tree.node? place' := by
    intro place' here
    refine changed.frame place' fun p mem header => ?_
    obtain rfl := List.mem_singleton.1 mem
    exact apart_outputs named tree place' header here
  exact ⟨FileTree.canWrite_congr located' same, FileTree.blocked_congr located' same⟩

/-- The first half of a compilation. -/
def headerStep (tree : FileTree) (library : Library) (path : Path) (baseName : String) :
    Step CompileError Unit :=
  writeFile tree (OutputPaths.ofPath path).header (Cpp.header library baseName)

/-- Its second half, after the first. -/
def sourceStep (tree : FileTree) (library : Library) (path : Path) (baseName : String) :
    Step CompileError Unit :=
  writeFile (headerStep tree library path baseName).tree (OutputPaths.ofPath path).source
    (Cpp.source library baseName)

section Named

variable (named : path.baseName? = some baseName)
include named

/-- The two halves one after the other, each with its record, and the paths at the end. -/
theorem run_of_named (tree : FileTree) (library : Library) :
    run tree library path =
      ((writeNoted (onTree id) (OutputPaths.ofPath path).header (Cpp.header library baseName)
          tree).andThen fun tree _ =>
        (writeNoted (onTree id) (OutputPaths.ofPath path).source (Cpp.source library baseName)
          tree).andThen fun tree _ => ⟨tree, pure ()⟩).andThen
        fun tree _ => ⟨tree, pure (OutputPaths.ofPath path)⟩ := by
  simp only [run, carryOut, plan, named]
  rfl

/-- Without a header no source is tried. -/
theorem run_of_header_error {e : CompileError}
    (failed : (headerStep tree library path baseName).result.outcome = .error e) :
    (run tree library path).tree = (headerStep tree library path baseName).tree ∧
      (run tree library path).result.outcome = .error e := by
  obtain ⟨left, ended⟩ :=
    writeNoted_eq tree (OutputPaths.ofPath path).header (Cpp.header library baseName)
  rw [run_of_named named]
  obtain ⟨stopped, stays⟩ := andThen_of_error _ (ended.trans failed)
  obtain ⟨atEnd, result⟩ := andThen_of_error _ stays
  exact ⟨atEnd.trans (stopped.trans left), result⟩

theorem run_of_header_ok
    (written : (headerStep tree library path baseName).result.outcome = .ok ()) :
    (run tree library path).tree = (sourceStep tree library path baseName).tree ∧
      (run tree library path).result.outcome =
        (sourceStep tree library path baseName).result.outcome.map
          fun _ => OutputPaths.ofPath path := by
  obtain ⟨left, ended⟩ :=
    writeNoted_eq tree (OutputPaths.ofPath path).header (Cpp.header library baseName)
  obtain ⟨left', ended'⟩ := writeNoted_eq (headerStep tree library path baseName).tree
    (OutputPaths.ofPath path).source (Cpp.source library baseName)
  have goesOn := andThen_of_ok (fun tree _ =>
    (writeNoted (onTree id) (OutputPaths.ofPath path).source (Cpp.source library baseName)
      tree).andThen fun tree _ => ⟨tree, pure ()⟩) (ended.trans written)
  rw [left, ← headerStep, (andThen_pure _).1, (andThen_pure _).2, left', ended',
    ← sourceStep] at goesOn
  rw [run_of_named named, (andThen_pure _).1, (andThen_pure _).2, goesOn.1, goesOn.2]
  refine ⟨rfl, ?_⟩
  cases (sourceStep tree library path baseName).result.outcome <;> rfl

/-- If the header cannot be written, all is as it was. -/
theorem run_of_header_not_canWrite (library : Library)
    (cannot : ¬ tree.CanWrite (OutputPaths.ofPath path).header) :
    (∀ place, (run tree library path).tree.node? place = tree.node? place) ∧
      ∃ e, tree.Blocked (OutputPaths.ofPath path).header e ∧
        (run tree library path).result.outcome = .error e := by
  obtain ⟨text, said⟩ := Cpp.exists_text_header library baseName
  obtain ⟨e, blocked, failed, same⟩ :=
    writeFile_of_not_canWrite cannot said (Cpp.header_ne_nil library baseName)
  obtain ⟨left, ended⟩ := run_of_header_error named failed
  rw [left]
  exact ⟨same, e, blocked, ended⟩

section Header

variable (can : tree.CanWrite (OutputPaths.ofPath path).header)
include can

/-- The header is written, and is there whatever becomes of the source. -/
theorem header_holds (library : Library) :
    (headerStep tree library path baseName).result.outcome = .ok () ∧
      (sourceStep tree library path baseName).tree.Holds (OutputPaths.ofPath path).header
        (Cpp.header library baseName) := by
  obtain ⟨text, said⟩ := Cpp.exists_text_header library baseName
  obtain ⟨written, holds⟩ := writeFile_of_canWrite can said
  exact ⟨written, holds.of_confined (confined_writeFile _ _ _) (apart_outputs named _)⟩

/-- If only the source cannot be written, the header is complete. -/
theorem run_of_source_not_canWrite (narrow : library.Narrow)
    (cannot : ¬ tree.CanWrite (OutputPaths.ofPath path).source) :
    (run tree library path).tree.Holds (OutputPaths.ofPath path).header
        (Cpp.header library baseName) ∧
      tree.Confined [(OutputPaths.ofPath path).header] (run tree library path).tree ∧
      ∃ e, tree.Blocked (OutputPaths.ofPath path).source e ∧
        (run tree library path).result.outcome = .error e := by
  obtain ⟨text, said⟩ := Cpp.exists_text_source narrow baseName
  obtain ⟨written, holds⟩ := header_holds named can library
  obtain ⟨left, ended⟩ := run_of_header_ok named written
  have changed : tree.Confined _ (headerStep tree library path baseName).tree :=
    confined_writeFile tree _ _
  obtain ⟨canIff, blockedIff⟩ := source_congr named can changed
  obtain ⟨e, blocked, failed, same⟩ :=
    writeFile_of_not_canWrite (mt canIff.1 cannot) said (Cpp.source_ne_nil library baseName)
  have untouched : (headerStep tree library path baseName).tree.Confined []
      (sourceStep tree library path baseName).tree :=
    ⟨(confined_writeFile _ _ _).directories, fun place _ => same place⟩
  rw [left, ended, sourceStep, failed, ← sourceStep]
  exact ⟨holds, changed.trans untouched, e, (blockedIff e).1 blocked, rfl⟩

/-- If both files can be written, they hold the generated texts. -/
theorem run_of_canWrite (narrow : library.Narrow)
    (can' : tree.CanWrite (OutputPaths.ofPath path).source) :
    (run tree library path).tree.Holds (OutputPaths.ofPath path).header
        (Cpp.header library baseName) ∧
      (run tree library path).tree.Holds (OutputPaths.ofPath path).source
        (Cpp.source library baseName) ∧
      (run tree library path).result.outcome = .ok (OutputPaths.ofPath path) := by
  obtain ⟨text, said⟩ := Cpp.exists_text_source narrow baseName
  obtain ⟨written, holds⟩ := header_holds named can library
  obtain ⟨left, ended⟩ := run_of_header_ok named written
  have changed : tree.Confined _ (headerStep tree library path baseName).tree :=
    confined_writeFile tree _ _
  obtain ⟨canIff, -⟩ := source_congr named can changed
  obtain ⟨written', holds'⟩ := writeFile_of_canWrite (canIff.2 can') said
  rw [left, ended, sourceStep, written', ← sourceStep]
  exact ⟨holds, holds', rfl⟩

end Header

end Named

/-! ## The whole -/

theorem run_succeeds_iff {library : Library} (narrow : library.Narrow) (tree : FileTree)
    (path : Path) :
    (∃ made, (run tree library path).result.outcome = .ok made) ↔
      (∃ baseName, path.baseName? = some baseName) ∧
        tree.CanWrite (OutputPaths.ofPath path).header ∧
        tree.CanWrite (OutputPaths.ofPath path).source := by
  constructor
  · rintro ⟨made, succeeded⟩
    cases named : path.baseName? with
    | none =>
      rw [run_of_baseName?_eq_none named] at succeeded
      cases succeeded
    | some baseName =>
      refine ⟨⟨baseName, rfl⟩, ?_⟩
      by_contra cannot
      by_cases can : tree.CanWrite (OutputPaths.ofPath path).header
      · have cannot' := fun can' => cannot ⟨can, can'⟩
        obtain ⟨-, -, e, -, failed⟩ := run_of_source_not_canWrite named can narrow cannot'
        cases succeeded.symm.trans failed
      · obtain ⟨-, e, -, failed⟩ := run_of_header_not_canWrite named library can
        cases succeeded.symm.trans failed
  · rintro ⟨⟨baseName, named⟩, can, can'⟩
    exact ⟨_, (run_of_canWrite named can narrow can').2.2⟩

/-- What a compilation says is what it has done. -/
structure Faithful (tree : FileTree) (library : Library) (path : Path) (outputs : OutputPaths)
    (step : Step CompileError OutputPaths) : Prop where
  confined : tree.Confined [outputs.header, outputs.source] step.tree
  succeeds_iff : (∃ made, step.result.outcome = .ok made) ↔
    (∃ baseName, path.baseName? = some baseName) ∧ tree.CanWrite outputs.header ∧
      tree.CanWrite outputs.source
  complete : ∀ made, step.result.outcome = .ok made → made = outputs ∧
    ∃ baseName, path.baseName? = some baseName ∧
      step.tree.Holds outputs.header (Cpp.header library baseName) ∧
      step.tree.Holds outputs.source (Cpp.source library baseName)
  rejected : path.baseName? = none →
    step.tree = tree ∧ step.result.outcome = .error (.invalidPath path)
  headerFailed : ∀ baseName, path.baseName? = some baseName → ¬ tree.CanWrite outputs.header →
    (∀ place, step.tree.node? place = tree.node? place) ∧
      ∃ e, tree.Blocked outputs.header e ∧ step.result.outcome = .error e
  sourceFailed : ∀ baseName, path.baseName? = some baseName → tree.CanWrite outputs.header →
    ¬ tree.CanWrite outputs.source →
    step.tree.Holds outputs.header (Cpp.header library baseName) ∧
      tree.Confined [outputs.header] step.tree ∧
      ∃ e, tree.Blocked outputs.source e ∧ step.result.outcome = .error e

/-- **A compilation succeeds only with both files complete, and fails only as it says.** No file
can refuse a piece of a text without the writing of the text failing. -/
theorem run_faithful {library : Library} (narrow : library.Narrow) (tree : FileTree)
    (path : Path) :
    Faithful tree library path (OutputPaths.ofPath path) (run tree library path) ∧
      ∀ takes draft text, Cpp.text? draft = some text →
        (Cpp.pour takes [] draft).ending = .complete →
          (Cpp.pour takes [] draft).written = Utf8.encode text := by
  refine ⟨?_, fun takes draft text => Cpp.written_of_complete⟩
  have succeedsIff := run_succeeds_iff narrow tree path
  refine
    { confined := confined_run tree library path
      succeeds_iff := succeedsIff
      complete := fun made succeeded => ?_
      rejected := fun unnamed => ?_
      headerFailed := fun baseName named => run_of_header_not_canWrite named library
      sourceFailed := fun baseName named can => run_of_source_not_canWrite named can narrow }
  · obtain ⟨⟨baseName, named⟩, can, can'⟩ := succeedsIff.1 ⟨made, succeeded⟩
    obtain ⟨holds, holds', ended⟩ := run_of_canWrite named can narrow can'
    exact ⟨Except.ok.inj (succeeded.symm.trans ended), baseName, named, holds, holds'⟩
  · rw [run_of_baseName?_eq_none unnamed]
    exact ⟨rfl, rfl⟩

/-- A full device in the place of the source: the header is complete, and the failure is told, though
the source is so short that nothing is handed over before its end. -/
theorem run_faithful_fullDevice :
    Library.sample.Narrow ∧
      (run (FileTree.fresh.addNode (Utf8.encode "a.cc") .fullDevice) .sample
          (Utf8.encode "a.c")).tree.Holds (Utf8.encode "a.h") (Cpp.header .sample "a") ∧
      (run (FileTree.fresh.addNode (Utf8.encode "a.cc") .fullDevice) .sample
          (Utf8.encode "a.c")).result.outcome =
        .error (.writing (Utf8.encode "a.cc") .noSpace) := by
  let tree := FileTree.fresh.addNode (Utf8.encode "a.cc") .fullDevice
  have narrow : Library.sample.Narrow := by decide
  have named : Path.baseName? (Utf8.encode "a.c") = some "a" :=
    Path.baseName?_eq_some_iff.2 (by decide)
  have can : tree.CanWrite (OutputPaths.ofPath (Utf8.encode "a.c")).header :=
    FileTree.canWrite_iff.2 ⟨_, rfl, .inl (by decide)⟩
  have located : tree.locate (Utf8.encode "a.cc") =
      .ok [Utf8.encode "tmp", Utf8.encode "work", Utf8.encode "a.cc"] := rfl
  have full : tree.node? [Utf8.encode "tmp", Utf8.encode "work", Utf8.encode "a.cc"] =
      some .fullDevice := by decide
  have blockedIff := FileTree.blocked_of_create_ok (FileTree.create_of_fullDevice located full) full
  have cannot : ¬ tree.CanWrite (OutputPaths.ofPath (Utf8.encode "a.c")).source := by
    rw [FileTree.canWrite_iff]
    rintro ⟨place, located', free⟩
    cases located.symm.trans located'
    obtain h | ⟨content, h⟩ := free <;> cases full.symm.trans h
  obtain ⟨faithful, -⟩ := run_faithful narrow tree (Utf8.encode "a.c")
  obtain ⟨holds, -, e, blocked, failed⟩ := faithful.sourceFailed "a" named can cannot
  obtain ⟨-, rfl⟩ := (blockedIff e).1 blocked
  exact ⟨narrow, holds, failed⟩

end Compilation

end GlyphTables
