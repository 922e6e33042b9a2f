import GlyphTables.Proofs.Table.Run
import GlyphTables.Library

/-!
# What speaks against a library

Assembling a library scans its tables and then their identifiers, each time for the first item that
clashes with an item before it.

* `scan_eq_none_iff` : a scan finds nothing exactly if no two items clash;
* `scan_eq_some_iff` : it finds the earliest item that clashes with one before it;
* `Accepted.unique` : in a library that is let pass no identifier comes twice;
* `Accepted.of_perm_append` : it stays accepted when tables are deleted or change places;
* `assemble_outcome_iff` : which of the four outcomes comes about, and with what it comes; the order
  of the tables has no part in the choice.
-/

namespace GlyphTables.Library

/-! ## Scanning for a clash -/

section Scan

variable {α β : Type}

/-- What `check` first finds in a list, where it is shown all items before the one in question. -/
def scan (check : List α → α → Option β) (before : List α) : List α → Option β
  | [] => none
  | x :: rest =>
    match check before x with
    | some found => some found
    | none => scan check (x :: before) rest

theorem scan_eq_some_iff (check : List α → α → Option β) (before items : List α) (found : β) :
    scan check before items = some found ↔
      ∃ front x rest, items = front ++ x :: rest ∧ scan check before front = none ∧
        check (front.reverse ++ before) x = some found := by
  induction items generalizing before with
  | nil => simp [scan]
  | cons y items ih =>
    cases hy : check before y with
    | some other =>
      simp only [scan, hy]
      constructor
      · intro h
        exact ⟨[], y, items, rfl, rfl, hy.trans h⟩
      · rintro ⟨front, x, rest, split, quiet, hx⟩
        cases front with
        | nil =>
          obtain ⟨rfl, rfl⟩ := List.cons.inj split
          exact hy.symm.trans hx
        | cons z front =>
          obtain ⟨rfl, -⟩ := List.cons.inj split
          simp [scan, hy] at quiet
    | none =>
      simp only [scan, hy, ih]
      constructor
      · rintro ⟨front, x, rest, rfl, quiet, hx⟩
        refine ⟨y :: front, x, rest, rfl, ?_, ?_⟩
        · simpa [scan, hy] using quiet
        · simpa using hx
      · rintro ⟨front, x, rest, split, quiet, hx⟩
        cases front with
        | nil =>
          obtain ⟨rfl, rfl⟩ := List.cons.inj split
          rw [List.reverse_nil, List.nil_append, hy] at hx
          cases hx
        | cons z front =>
          obtain ⟨rfl, rfl⟩ := List.cons.inj split
          refine ⟨front, x, rest, rfl, ?_, ?_⟩
          · simpa [scan, hy] using quiet
          · simpa using hx

theorem scan_eq_none_iff {check : List α → α → Option β} {Clash : α → α → Prop}
    (hc : ∀ before x, check before x = none ↔ ∀ y ∈ before, ¬ Clash y x)
    (before items : List α) :
    scan check before items = none ↔
      (∀ y ∈ before, ∀ x ∈ items, ¬ Clash y x) ∧ items.Pairwise fun y x => ¬ Clash y x := by
  induction items generalizing before with
  | nil => simp [scan]
  | cons x items ih =>
    have first := hc before x
    cases hx : check before x with
    | some found =>
      simp only [hx, reduceCtorEq, false_iff] at first
      simp only [scan, hx, reduceCtorEq, false_iff]
      exact fun h => first fun y hy => h.1 y hy x List.mem_cons_self
    | none =>
      have free := first.1 hx
      simp only [scan, hx, ih, List.pairwise_cons, List.forall_mem_cons]
      constructor
      · rintro ⟨⟨hx, hb⟩, hp⟩
        exact ⟨fun y hy => ⟨free y hy, hb y hy⟩, hx, hp⟩
      · rintro ⟨hb, hx, hp⟩
        exact ⟨⟨hx, fun y hy => (hb y hy).2⟩, hp⟩

end Scan

/-! ## Tables -/

/-- Two tables that cannot stand in one library. -/
def Rivals (a b : Table) : Prop :=
  a.name = b.name ∨ eqIgnoringCase a.metadata.symbolPrefix b.metadata.symbolPrefix = true

theorem sharesName_iff (a b : Table) : sharesName a b = true ↔ Rivals a b := by
  simp [sharesName, Rivals]

theorem Rivals.symm {a b : Table} (h : Rivals a b) : Rivals b a := by
  rw [Rivals, eqIgnoringCase_comm, eq_comm]
  exact h

/-- The check of `firstRepeat?`. -/
def repeats (before : List Table) (table : Table) : Option Table :=
  if before.any fun earlier => sharesName earlier table then some table else none

theorem firstRepeat?_eq_scan (before tables : List Table) :
    firstRepeat? before tables = scan repeats before tables := by
  induction tables generalizing before with
  | nil => rfl
  | cons table rest ih =>
    rw [firstRepeat?, scan, repeats]
    split
    · rfl
    · exact ih (table :: before)

theorem repeats_eq_some_iff (before : List Table) (table found : Table) :
    repeats before table = some found ↔ (∃ earlier ∈ before, Rivals earlier table) ∧
      table = found := by
  simp [repeats, sharesName_iff]

theorem repeats_eq_none_iff (before : List Table) (table : Table) :
    repeats before table = none ↔ ∀ earlier ∈ before, ¬ Rivals earlier table := by
  simp [repeats, ← sharesName_iff]

theorem firstRepeat?_eq_none_iff (tables : List Table) :
    firstRepeat? [] tables = none ↔ tables.Pairwise fun a b => ¬ Rivals a b := by
  rw [firstRepeat?_eq_scan, scan_eq_none_iff repeats_eq_none_iff]
  simp

theorem firstRepeat?_eq_some_iff (tables : List Table) (table : Table) :
    firstRepeat? [] tables = some table ↔
      ∃ before rest, tables = before ++ table :: rest ∧ (before.Pairwise fun a b => ¬ Rivals a b) ∧
        ∃ earlier ∈ before, Rivals earlier table := by
  rw [firstRepeat?_eq_scan, scan_eq_some_iff]
  simp only [← firstRepeat?_eq_scan, firstRepeat?_eq_none_iff, repeats_eq_some_iff,
    List.append_nil, List.mem_reverse]
  constructor
  · rintro ⟨before, x, rest, split, apart, rival, rfl⟩
    exact ⟨before, rest, split, apart, rival⟩
  · rintro ⟨before, rest, split, apart, rival⟩
    exact ⟨before, table, rest, split, apart, rival, rfl⟩

/-! ## Identifiers -/

theorem map_fst_claims (tables : List Table) :
    (claims tables).map Prod.fst = tables.flatMap Table.identifiers := by
  simp [claims, List.map_flatMap, Function.comp_def]

/-- The check of `firstCollision?`. -/
def collides (before : List (String × String)) (claim : String × String) : Option LibraryError :=
  (before.lookup claim.1).map fun first => .identifierCollision first claim.2 claim.1

theorem firstCollision?_eq_scan (before claims : List (String × String)) :
    firstCollision? before claims = scan collides before claims := by
  induction claims generalizing before with
  | nil => rfl
  | cons claim rest ih =>
    rw [firstCollision?, scan, collides]
    cases before.lookup claim.1 with
    | some first => rfl
    | none => exact ih (claim :: before)

theorem collides_eq_none_iff (before : List (String × String)) (claim : String × String) :
    collides before claim = none ↔ ∀ earlier ∈ before, ¬ earlier.1 = claim.1 := by
  simp only [collides, Option.map_eq_none_iff, List.lookup_eq_none_iff, bne_iff_ne, ne_eq]
  exact forall₂_congr fun earlier _ => not_congr eq_comm

/-- In a list without repeated keys a key has one value. -/
theorem lookup_eq_some_iff_mem {entries : List (String × String)}
    (h : (entries.map Prod.fst).Nodup) (key value : String) :
    entries.lookup key = some value ↔ (key, value) ∈ entries := by
  induction entries with
  | nil => simp
  | cons entry rest ih =>
    obtain ⟨k, v⟩ := entry
    obtain ⟨fresh, h⟩ := List.nodup_cons.1 h
    rw [List.lookup_cons, List.mem_cons, Prod.mk.injEq]
    by_cases hk : key = k
    · subst hk
      have absent : (key, value) ∉ rest := fun hm => fresh (List.mem_map.2 ⟨_, hm, rfl⟩)
      simp [absent, eq_comm]
    · simp [hk, beq_eq_false_iff_ne.2 hk, ih h]

theorem firstCollision?_eq_none_iff (claims : List (String × String)) :
    firstCollision? [] claims = none ↔ (claims.map Prod.fst).Nodup := by
  rw [firstCollision?_eq_scan, scan_eq_none_iff collides_eq_none_iff]
  simp [List.Nodup, List.pairwise_map]

theorem firstCollision?_eq_some_iff (claims : List (String × String)) (error : LibraryError) :
    firstCollision? [] claims = some error ↔
      ∃ before identifier first second rest, claims = before ++ (identifier, second) :: rest ∧
        (before.map Prod.fst).Nodup ∧ (identifier, first) ∈ before ∧
        error = .identifierCollision first second identifier := by
  rw [firstCollision?_eq_scan, scan_eq_some_iff]
  simp only [← firstCollision?_eq_scan, firstCollision?_eq_none_iff, List.append_nil, collides,
    Option.map_eq_some_iff]
  have key : ∀ {before : List (String × String)}, (before.map Prod.fst).Nodup →
      ∀ identifier first, before.reverse.lookup identifier = some first ↔
        (identifier, first) ∈ before := by
    intro before h identifier first
    rw [lookup_eq_some_iff_mem (by rwa [List.map_reverse, List.nodup_reverse]), List.mem_reverse]
  constructor
  · rintro ⟨before, ⟨identifier, second⟩, rest, split, apart, first, found, rfl⟩
    exact ⟨before, identifier, first, second, rest, split, apart, (key apart _ _).1 found, rfl⟩
  · rintro ⟨before, identifier, first, second, rest, split, apart, found, rfl⟩
    exact ⟨before, (identifier, second), rest, split, apart, first, (key apart _ _).2 found, rfl⟩

/-! ## Outcomes -/

/-- The target says nothing. -/
def Blank (library : Library) : Prop :=
  ∀ c ∈ library.target.toList, Text.isBlank c = true

/-- No two tables are rivals. -/
def Apart (tables : List Table) : Prop :=
  tables.Pairwise fun a b => ¬ Rivals a b

/-- What is to come of a library, and why. -/
inductive Outcome (library : Library) : Except LibraryError Library → Prop where
  | emptyTarget (blank : library.Blank) : Outcome library (.error .emptyTarget)
  | duplicateTable {before rest : List Table} {earlier table : Table} (target : ¬ library.Blank)
      (split : library.tables = before ++ table :: rest) (apart : Apart before)
      (mem : earlier ∈ before) (rivals : Rivals earlier table) :
      Outcome library (.error (.duplicateTable table.name))
  | identifierCollision {before rest : List (String × String)} {identifier first second : String}
      (target : ¬ library.Blank) (apart : Apart library.tables)
      (split : claims library.tables = before ++ (identifier, second) :: rest)
      (once : (before.map Prod.fst).Nodup) (mem : (identifier, first) ∈ before) :
      Outcome library (.error (.identifierCollision first second identifier))
  | accepted (target : ¬ library.Blank) (apart : Apart library.tables)
      (unique : (library.tables.flatMap Table.identifiers).Nodup) : Outcome library (.ok library)

theorem all_isBlank_iff (library : Library) :
    library.target.toList.all Text.isBlank = true ↔ library.Blank :=
  List.all_eq_true

/-- The three checks in their order: the target, the tables, the identifiers. -/
theorem objection?_eq (library : Library) :
    objection? library.target library.tables =
      if library.target.toList.all Text.isBlank then some .emptyTarget
      else ((firstRepeat? [] library.tables).map fun table => .duplicateTable table.name).or
        (firstCollision? [] (claims library.tables)) := by
  rw [objection?]
  cases firstRepeat? [] library.tables <;> rfl

theorem Outcome.outcome_assemble {library : Library} {outcome : Except LibraryError Library}
    (h : Outcome library outcome) : library.assemble.outcome = outcome := by
  rw [Library.outcome_assemble, objection?_eq]
  cases h with
  | emptyTarget blank => rw [if_pos (library.all_isBlank_iff.2 blank)]
  | duplicateTable target split apart mem rivals =>
    have found := (firstRepeat?_eq_some_iff library.tables _).2
      ⟨_, _, split, apart, _, mem, rivals⟩
    rw [if_neg (mt library.all_isBlank_iff.1 target), found]
    rfl
  | identifierCollision target apart split once mem =>
    have found := (firstCollision?_eq_some_iff (claims library.tables) _).2
      ⟨_, _, _, _, _, split, once, mem, rfl⟩
    rw [if_neg (mt library.all_isBlank_iff.1 target),
      (firstRepeat?_eq_none_iff library.tables).2 apart, found]
    rfl
  | accepted target apart unique =>
    rw [← map_fst_claims, ← firstCollision?_eq_none_iff] at unique
    rw [if_neg (mt library.all_isBlank_iff.1 target),
      (firstRepeat?_eq_none_iff library.tables).2 apart, unique]
    rfl

theorem outcome_of_assemble (library : Library) : Outcome library library.assemble.outcome := by
  rw [outcome_assemble, objection?_eq]
  by_cases target : library.Blank
  · rw [if_pos (library.all_isBlank_iff.2 target)]
    exact .emptyTarget target
  rw [if_neg (mt library.all_isBlank_iff.1 target)]
  cases hr : firstRepeat? [] library.tables with
  | some table =>
    obtain ⟨_, _, split, apart, _, mem, rivals⟩ :=
      (firstRepeat?_eq_some_iff library.tables table).1 hr
    exact .duplicateTable target split apart mem rivals
  | none =>
    have apart := (firstRepeat?_eq_none_iff library.tables).1 hr
    cases hc : firstCollision? [] (claims library.tables) with
    | some error =>
      obtain ⟨_, _, _, _, _, split, once, mem, rfl⟩ :=
        (firstCollision?_eq_some_iff (claims library.tables) error).1 hc
      exact .identifierCollision target apart split once mem
    | none =>
      have unique := (firstCollision?_eq_none_iff (claims library.tables)).1 hc
      exact .accepted target apart (map_fst_claims library.tables ▸ unique)

/-- A library that is let pass, whose tables come from builders. -/
structure Accepted (library : Library) : Prop where
  built : ∀ table ∈ library.tables, table.Built
  assembled : library.assemble.outcome = .ok library

theorem Accepted.wellNamed {library : Library} (h : library.Accepted) {table : Table}
    (mem : table ∈ library.tables) : table.WellNamed :=
  (table.built_iff.1 (h.built table mem)).1

theorem Accepted.unique {library : Library} (h : library.Accepted) :
    (library.tables.flatMap Table.identifiers).Nodup := by
  have outcome := outcome_of_assemble library
  rw [h.assembled] at outcome
  cases outcome with
  | accepted target apart unique => exact unique

theorem accepted_iff (library : Library) :
    library.Accepted ↔
      (∀ table ∈ library.tables, table.WellNamed ∧ table.entries ≠ []) ∧
        objection? library.target library.tables = none := by
  have assembled : library.assemble.outcome = .ok library ↔
      objection? library.target library.tables = none := by
    rw [outcome_assemble]
    cases objection? library.target library.tables <;> simp
  constructor
  · intro h
    exact ⟨fun table mem => table.built_iff.1 (h.built table mem), assembled.1 h.assembled⟩
  · rintro ⟨named, quiet⟩
    exact ⟨fun table mem => table.built_iff.2 (named table mem), assembled.2 quiet⟩

instance (library : Library) : Decidable library.Accepted :=
  decidable_of_iff _ library.accepted_iff.symm

/-- A library of a table of each kind, the one with aliases and the other without. -/
def sample : Library where
  target := "t"
  scope := "n"
  includes := []
  preamble := ""
  tables :=
    [⟨⟨"f", "F", .enumerated, "int", true, []⟩,
        [⟨"a", ⟨"v", "int", [1, 2], .decimal⟩⟩, ⟨"b", ⟨"v", "int", [3], .decimal⟩⟩]⟩,
      ⟨⟨"g", "G", .array, "int", false, []⟩, [⟨"a", ⟨"v", "int", [4], .decimal⟩⟩]⟩]

theorem accepted_sample : sample.Accepted := by
  have target : ¬ sample.Blank := by
    intro h
    exact absurd (h 't' (by simp [sample])) (by decide)
  have apart : Apart sample.tables := by
    simp only [Apart, Rivals, sample, List.pairwise_pair]
    decide +kernel
  have identifiers : sample.tables.flatMap Table.identifiers =
      ["fs", "F_RESID", "F_LAST", "F_A", "F_B", "f_a_v", "f_b_v", "gs", "g_a_v"] := by cbv
  refine ⟨?_, Outcome.outcome_assemble (.accepted target apart ?_)⟩
  · simp only [sample, List.forall_mem_cons, Table.built_iff, ne_eq, reduceCtorEq,
      not_false_eq_true, and_true, List.not_mem_nil, IsEmpty.forall_iff, implies_true]
    constructor
    · constructor
      all_goals decide +kernel
    · constructor
      all_goals decide +kernel
  · rw [identifiers]
    decide

/-! ## The order of the tables -/

/-- The kinds of outcomes. -/
inductive Verdict where
  | emptyTarget
  | duplicateTable
  | identifierCollision
  | accepted
  deriving DecidableEq

def Verdict.of : Except LibraryError Library → Verdict
  | .error .emptyTarget => .emptyTarget
  | .error (.duplicateTable _) => .duplicateTable
  | .error (.identifierCollision _ _ _) => .identifierCollision
  | .ok _ => .accepted

theorem not_apart_of_rivals {before rest : List Table} {earlier table : Table}
    (mem : earlier ∈ before) (rivals : Rivals earlier table) :
    ¬ Apart (before ++ table :: rest) := by
  intro apart
  exact (List.pairwise_append.1 apart).2.2 earlier mem table List.mem_cons_self rivals

theorem not_nodup_of_repeat {before rest : List (String × String)}
    {identifier first second : String} (mem : (identifier, first) ∈ before) :
    ¬ ((before ++ (identifier, second) :: rest).map Prod.fst).Nodup := by
  rw [List.map_append, List.map_cons]
  intro nodup
  exact (List.nodup_append.1 nodup).2.2 _ (List.mem_map_of_mem mem) _ List.mem_cons_self rfl

open Classical in
/-- The kind of the outcome hangs on three conditions, none of which heeds the order of the
tables. -/
theorem verdict_assemble (library : Library) :
    Verdict.of library.assemble.outcome =
      if library.Blank then .emptyTarget
      else if ¬ Apart library.tables then .duplicateTable
      else if ¬ (library.tables.flatMap Table.identifiers).Nodup then .identifierCollision
      else .accepted := by
  have h := outcome_of_assemble library
  generalize library.assemble.outcome = outcome at h
  cases h with
  | emptyTarget blank => rw [if_pos blank, Verdict.of]
  | duplicateTable target split apart mem rivals =>
    rw [if_neg target, split, if_pos (not_apart_of_rivals mem rivals), Verdict.of]
  | identifierCollision target apart split once mem =>
    rw [if_neg target, if_neg (not_not.2 apart), ← map_fst_claims, split,
      if_pos (not_nodup_of_repeat mem), Verdict.of]
  | accepted target apart unique =>
    rw [if_neg target, if_neg (not_not.2 apart), if_neg (not_not.2 unique), Verdict.of]

/-- Which tables are rejected may depend on their order, but not whether. -/
theorem verdict_perm (library : Library) {tables : List Table} (h : library.tables.Perm tables) :
    Verdict.of (assemble { library with tables }).outcome =
      Verdict.of library.assemble.outcome := by
  have apart : Apart library.tables ↔ Apart tables :=
    h.pairwise_iff (mt Rivals.symm)
  have unique := (h.flatMap_right Table.identifiers).nodup_iff
  rw [verdict_assemble, verdict_assemble, propext apart]
  simp only [unique]
  rfl

/-- Whatever tables are left of an accepted library, in whatever order, they make a library. -/
theorem Accepted.of_perm_append {library : Library} (h : library.Accepted)
    {kept deleted : List Table} (perm : (kept ++ deleted).Perm library.tables) :
    Accepted { library with tables := kept } := by
  have outcome := outcome_of_assemble library
  rw [h.assembled] at outcome
  cases outcome with
  | accepted target apart unique =>
    have apart : Apart (kept ++ deleted) := (perm.pairwise_iff (mt Rivals.symm)).2 apart
    have unique := (perm.flatMap_right Table.identifiers).nodup_iff.2 unique
    rw [List.flatMap_append] at unique
    constructor
    · intro table mem
      exact h.built table (perm.mem_iff.1 (List.mem_append_left _ mem))
    · refine Outcome.outcome_assemble (.accepted target ?_ unique.of_append_left)
      exact apart.sublist (List.sublist_append_left _ _)

/-- **The outcome of assembling, and its indifference to the order of the tables.** -/
theorem assemble_outcome_iff (library : Library) :
    (∀ outcome, library.assemble.outcome = outcome ↔ Outcome library outcome) ∧
      ∀ tables, library.tables.Perm tables →
        Verdict.of (assemble { library with tables }).outcome =
          Verdict.of library.assemble.outcome := by
  refine ⟨fun outcome => ⟨?_, Outcome.outcome_assemble⟩, fun tables => library.verdict_perm⟩
  rintro rfl
  exact library.outcome_of_assemble

/-- Two tables, of which the first has an entry that is called like the count of the second. -/
def crossed : Library where
  target := "t"
  scope := ""
  includes := []
  preamble := ""
  tables :=
    [⟨⟨"a", "P", .enumerated, "int", false, []⟩, [⟨"Q_last", ⟨"v", "int", [1], .decimal⟩⟩]⟩,
      ⟨⟨"b", "P_Q", .enumerated, "int", false, []⟩, [⟨"x", ⟨"v", "int", [2], .decimal⟩⟩]⟩]

theorem assemble_outcome_iff_crossed :
    crossed.assemble.outcome = .error (.identifierCollision "a" "b" "P_Q_LAST") ∧
      Verdict.of (assemble { crossed with tables := crossed.tables.reverse }).outcome =
        .identifierCollision := by
  obtain ⟨decided, indifferent⟩ := assemble_outcome_iff crossed
  have target : ¬ crossed.Blank := by
    intro h
    exact absurd (h 't' (by simp [crossed])) (by decide)
  have apart : Apart crossed.tables := by
    simp only [Apart, Rivals, crossed, List.pairwise_pair]
    decide +kernel
  have split : claims crossed.tables =
      [("as", "a"), ("P_RESID", "a"), ("P_LAST", "a"), ("P_Q_LAST", "a"), ("a_q_last_v", "a"),
        ("bs", "b"), ("P_Q_RESID", "b")] ++ ("P_Q_LAST", "b") ::
        [("P_Q_X", "b"), ("b_x_v", "b")] := by cbv
  have collision : crossed.assemble.outcome =
      .error (.identifierCollision "a" "b" "P_Q_LAST") :=
    (decided _).2 (.identifierCollision target apart split (by decide) (by simp))
  refine ⟨collision, ?_⟩
  rw [indifferent _ (List.reverse_perm _).symm, collision]
  rfl

end GlyphTables.Library
