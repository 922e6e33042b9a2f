import GlyphTables.FileTree
import GlyphTables.Proofs.OutputPath

/-!
# Where paths lead

On its way a path asks of each place only whether it is a directory. So files that are written
change nothing about where other paths lead.

* `SameDirectories.locate_eq_ok_iff` : where the directories are the same, paths lead to the same
  places;
* `locate_of_sibling` : where one file of a directory is found, all others are judged alike;
* `canWrite_iff` : a file can be written where nothing or a regular file is;
* `Confined.trans` : what is changed along the way adds up.
-/

namespace GlyphTables.FileTree

variable {tree other : FileTree} {path path' : Path} {place : Location}

/-- To put something where it is changes nothing. -/
theorem node?_put_of_node? {node : Node} (h : tree.node? place = some node)
    (place' : Location) : (tree.put place node).node? place' = tree.node? place' := by
  by_cases here : place' = place
  · subst here
    cases place' with
    | nil => rfl
    | cons name rest => rw [node?_put_self tree node (List.cons_ne_nil name rest), h]
  · exact node?_put_of_ne tree node here

/-! ## Directories -/

/-- Two trees have the same directories and are seen from the same place. -/
structure SameDirectories (tree other : FileTree) : Prop where
  working : other.working = tree.working
  directory_iff : ∀ place,
    other.node? place = some .directory ↔ tree.node? place = some .directory

theorem SameDirectories.refl (tree : FileTree) : tree.SameDirectories tree :=
  ⟨rfl, fun _ => .rfl⟩

theorem SameDirectories.symm (h : tree.SameDirectories other) : other.SameDirectories tree :=
  ⟨h.working.symm, fun place => (h.directory_iff place).symm⟩

theorem SameDirectories.trans {last : FileTree} (h : tree.SameDirectories other)
    (h' : other.SameDirectories last) : tree.SameDirectories last :=
  ⟨h'.working.trans h.working, fun place =>
    (h'.directory_iff place).trans (h.directory_iff place)⟩

theorem sameDirectories_put {node : Node} (h : tree.node? place ≠ some .directory)
    (noDirectory : node ≠ .directory) : tree.SameDirectories (tree.put place node) := by
  refine ⟨rfl, fun at' => ?_⟩
  by_cases here : at' = place
  · have inside : place ≠ [] := by
      rintro rfl
      exact h rfl
    rw [here, node?_put_self tree node inside]
    simp [noDirectory, h]
  · rw [node?_put_of_ne tree node here]

theorem enter_eq_ok_iff {name : Path} {next : Location} :
    tree.enter place name = .ok next ↔
      tree.node? place = some .directory ∧ name.length ≤ longestName ∧ step place name = next := by
  unfold enter
  cases h : tree.node? place with
  | none => simp
  | some node =>
    cases node with
    | directory =>
      by_cases long : longestName < name.length
      · simp [long]
      · simp [long, not_lt.1 long]
    | _ => simp

section SameDirectories

variable (h : tree.SameDirectories other)
include h

theorem SameDirectories.foldlM_enter {names : List Path} {first last : Location}
    (walked : names.foldlM tree.enter first = .ok last) :
    names.foldlM other.enter first = .ok last := by
  induction names generalizing first with
  | nil => exact walked
  | cons name rest ih =>
    rw [List.foldlM_cons] at walked ⊢
    cases step : tree.enter first name with
    | error e => rw [step] at walked; cases walked
    | ok next =>
      rw [step] at walked
      obtain ⟨here, short, arrived⟩ := enter_eq_ok_iff.1 step
      rw [enter_eq_ok_iff.2 ⟨(h.directory_iff first).2 here, short, arrived⟩]
      exact ih walked

theorem SameDirectories.start_eq (path : Path) : other.start path = tree.start path := by
  unfold start
  rw [h.working]

theorem SameDirectories.locate (located : tree.locate path = .ok place) :
    other.locate path = .ok place := by
  unfold FileTree.locate at located ⊢
  split at located
  · cases located
  split at located
  · cases located
  rename_i noNul short
  rw [if_neg noNul, if_neg short, h.start_eq]
  exact h.foldlM_enter located

/-- A path leads to the same place wherever the directories are the same. -/
theorem SameDirectories.locate_eq_ok_iff :
    other.locate path = .ok place ↔ tree.locate path = .ok place :=
  ⟨h.symm.locate, h.locate⟩

end SameDirectories

/-! ## Paths with a last name -/

theorem components_append_cons (a b : Path) :
    components (a ++ Path.separator :: b) = components a ++ components b := by
  have here : (Path.separator == Path.separator) = true := beq_self_eq_true _
  rw [components, List.splitOn_eq_splitOnP,
    List.splitOnP_append_cons (p := (· == Path.separator)) a b here, List.filter_append]
  rfl

theorem components_name {name : Path} (noSeparator : Path.separator ∉ name) (nonempty : name ≠ [])
    (notDot : name ≠ [Path.dot]) : components name = [name] := by
  have inside : ∀ byte ∈ name, (byte == Path.separator) = false := by
    intro byte mem
    rw [beq_eq_false_iff_ne]
    rintro rfl
    exact noSeparator mem
  rw [components, List.splitOn_eq_splitOnP, List.splitOnP_eq_singleton inside]
  simp [nonempty, notDot]

theorem components_of_parts {front name : Path} (h : Path.Parts path front name []) :
    components path = components front ++ [name] := by
  have last := components_name h.noSeparator h.nonempty h.notDot
  rw [h.split, List.append_nil]
  cases hf : front.getLast? with
  | none =>
    rw [List.getLast?_eq_none_iff.1 hf, List.nil_append, last]
    rfl
  | some byte =>
    obtain rfl : byte = Path.separator := h.front byte hf
    obtain ⟨directories, rfl⟩ := List.getLast?_eq_some_iff.1 hf
    rw [List.append_assoc, List.singleton_append, components_append_cons, components_append_cons,
      last]
    simp [components]

theorem start_of_parts {front name : Path} (h : Path.Parts path front name []) :
    tree.start path = tree.start front := by
  rw [h.split, List.append_nil]
  cases front with
  | cons byte rest => rfl
  | nil =>
    cases name with
    | nil => rfl
    | cons byte rest =>
      have other : byte ≠ Path.separator := by
        rintro rfl
        exact h.noSeparator List.mem_cons_self
      simp [start, other]

/-- Where the directory of a path is. -/
def walk (tree : FileTree) (front : Path) : Except FileError Location :=
  (components front).foldlM tree.enter (tree.start front)

/-- A path is followed by first going where its front leads and then to its last name. -/
theorem locate_of_parts {front name : Path} (h : Path.Parts path front name []) :
    tree.locate path =
      if path.contains 0 then .error .nulByte
      else if longestPath < path.length then .error .nameTooLong
      else tree.walk front >>= fun directory => tree.enter directory name := by
  simp only [locate, components_of_parts h, start_of_parts h, List.foldlM_append, List.foldlM_cons,
    List.foldlM_nil, bind_pure, walk]

theorem exists_walk {front name : Path} (h : Path.Parts path front name [])
    (located : tree.locate path = .ok place) :
    ∃ directory, tree.walk front = .ok directory ∧ tree.node? directory = some .directory ∧
      step directory name = place := by
  rw [locate_of_parts h] at located
  split at located
  · cases located
  split at located
  · cases located
  cases walked : tree.walk front with
  | error e => rw [walked] at located; cases located
  | ok directory =>
    rw [walked] at located
    obtain ⟨here, -, arrived⟩ := enter_eq_ok_iff.1 located
    exact ⟨directory, rfl, here, arrived⟩

/-- Where one file of a directory is found, the others are judged alike, whatever files there
are. -/
theorem locate_of_sibling {front name name' : Path} (h : Path.Parts path front name [])
    (h' : Path.Parts path' front name' []) (same : tree.SameDirectories other)
    (located : tree.locate path = .ok place) : other.locate path' = tree.locate path' := by
  obtain ⟨directory, walked, here, -⟩ := exists_walk h located
  -- all places on the way are directories, so `other` goes the same way
  have walked' : other.walk front = .ok directory := by
    rw [walk, same.start_eq]
    exact same.foldlM_enter walked
  have entered : other.enter directory name' = tree.enter directory name' := by
    rw [enter, enter, here, (same.directory_iff directory).2 here]
  rw [locate_of_parts h', locate_of_parts h', walked, walked']
  -- the bounds on a path do not depend on the tree, so only the last step can differ
  change (if _ then _ else if _ then _ else other.enter directory name') =
    if _ then _ else if _ then _ else tree.enter directory name'
  rw [entered]

/-- Two files of a directory are in different places. -/
theorem place_ne_of_sibling {front name name' : Path} {place' : Location}
    (h : Path.Parts path front name []) (h' : Path.Parts path' front name' [])
    (named : name ≠ [Path.dot, Path.dot]) (named' : name' ≠ [Path.dot, Path.dot])
    (different : name ≠ name') (located : tree.locate path = .ok place)
    (located' : tree.locate path' = .ok place') : place ≠ place' := by
  obtain ⟨directory, walked, -, rfl⟩ := exists_walk h located
  obtain ⟨directory', walked', -, rfl⟩ := exists_walk h' located'
  obtain rfl : directory = directory' := Except.ok.inj (walked.symm.trans walked')
  rw [step, step, if_neg named, if_neg named']
  intro same
  exact different (List.singleton_inj.1 (List.append_cancel_left same))

/-! ## Opening -/

/-- Nothing or a regular file is at `place`. -/
def IsFree (tree : FileTree) (place : Location) : Prop :=
  tree.node? place = none ∨ ∃ content, tree.node? place = some (.file content)

/-- A file can be opened at `path` and takes all that is written into it. -/
def CanWrite (tree : FileTree) (path : Path) : Prop :=
  ∃ place opened node, tree.create path = .ok (place, opened) ∧
    opened.node? place = some node ∧ ∀ bytes, node.takes bytes = true

theorem create_of_locate_error {e : FileError} (h : tree.locate path = .error e) :
    tree.create path = .error e := by
  rw [create, h]
  rfl

theorem create_of_locate (located : tree.locate path = .ok place) :
    tree.create path =
      match tree.node? place with
      | some .directory => .error .isDirectory
      | some .fullDevice => .ok (place, tree)
      | _ => .ok (place, tree.put place (.file [])) := by
  rw [create, located]
  rfl

theorem create_of_directory (located : tree.locate path = .ok place)
    (h : tree.node? place = some .directory) : tree.create path = .error .isDirectory := by
  rw [create_of_locate located, h]

theorem create_of_fullDevice (located : tree.locate path = .ok place)
    (h : tree.node? place = some .fullDevice) : tree.create path = .ok (place, tree) := by
  rw [create_of_locate located, h]

theorem create_of_isFree (located : tree.locate path = .ok place) (h : tree.IsFree place) :
    tree.create path = .ok (place, tree.put place (.file [])) := by
  rw [create_of_locate located]
  obtain h | ⟨content, h⟩ := h <;> rw [h]

theorem IsFree.ne_nil (h : tree.IsFree place) : place ≠ [] := by
  rintro rfl
  obtain h | ⟨content, h⟩ := h <;> cases h

theorem IsFree.node?_ne_directory (h : tree.IsFree place) :
    tree.node? place ≠ some .directory := by
  obtain h | ⟨content, h⟩ := h <;> simp [h]

/-- A place holds a directory or a full device, or is free. -/
theorem isFree_cases (tree : FileTree) (place : Location) :
    tree.node? place = some .directory ∨ tree.node? place = some .fullDevice ∨
      tree.IsFree place := by
  unfold IsFree
  cases h : tree.node? place with
  | none => simp
  | some node => cases node <;> simp

theorem canWrite_iff :
    tree.CanWrite path ↔ ∃ place, tree.locate path = .ok place ∧ tree.IsFree place := by
  constructor
  · rintro ⟨place, opened, node, created, found, takes⟩
    cases located : tree.locate path with
    | error e => simp [create_of_locate_error located] at created
    | ok place' =>
      refine ⟨place', rfl, ?_⟩
      obtain h | h | h := isFree_cases tree place'
      · simp [create_of_directory located h] at created
      · rw [create_of_fullDevice located h] at created
        cases created
        obtain rfl := Option.some.inj (h.symm.trans found)
        exact absurd (takes [0]) (by decide)
      · exact h
  · rintro ⟨place, located, free⟩
    exact ⟨place, _, _, create_of_isFree located free, node?_put_self tree _ free.ne_nil,
      fun bytes => rfl⟩

/-- Whether a path can be written depends on the node it leads to only. -/
theorem canWrite_congr (located : other.locate path = tree.locate path)
    (same : ∀ place, tree.locate path = .ok place → other.node? place = tree.node? place) :
    other.CanWrite path ↔ tree.CanWrite path := by
  simp only [canWrite_iff, located]
  refine exists_congr fun place => and_congr_right fun here => ?_
  rw [IsFree, IsFree, same place here]

/-! ## Changes -/

/-- `other` is `tree` but for what is at the ends of `paths`. -/
structure Confined (tree : FileTree) (paths : List Path) (other : FileTree) : Prop where
  directories : tree.SameDirectories other
  frame : ∀ place, (∀ path ∈ paths, tree.locate path ≠ .ok place) →
    other.node? place = tree.node? place

theorem Confined.refl (tree : FileTree) (paths : List Path) : tree.Confined paths tree :=
  ⟨.refl tree, fun _ _ => rfl⟩

theorem Confined.mono {paths paths' : List Path} (h : tree.Confined paths other)
    (sub : paths ⊆ paths') : tree.Confined paths' other :=
  ⟨h.directories, fun place elsewhere =>
    h.frame place fun path mem => elsewhere path (sub mem)⟩

theorem Confined.trans {paths paths' : List Path} {last : FileTree}
    (h : tree.Confined paths other) (h' : other.Confined paths' last) :
    tree.Confined (paths ++ paths') last := by
  refine ⟨h.directories.trans h'.directories, fun place elsewhere => ?_⟩
  have before : ∀ path ∈ paths, tree.locate path ≠ .ok place := fun path mem =>
    elsewhere path (List.mem_append_left _ mem)
  have after : ∀ path ∈ paths', other.locate path ≠ .ok place := fun path mem =>
    mt h.directories.locate_eq_ok_iff.1 (elsewhere path (List.mem_append_right _ mem))
  rw [h'.frame place after, h.frame place before]

/-- Changing the node that a path leads to is all that a writer of the path may do. -/
theorem confined_put {node : Node} (located : tree.locate path = .ok place)
    (h : tree.node? place ≠ some .directory) (noDirectory : node ≠ .directory) :
    tree.Confined [path] (tree.put place node) := by
  refine ⟨sameDirectories_put h noDirectory, fun other elsewhere => ?_⟩
  refine node?_put_of_ne tree node ?_
  rintro rfl
  exact elsewhere path List.mem_cons_self located

end GlyphTables.FileTree
