import GlyphTables.Proofs.Cpp.Composition

/-!
# The include directives of a header

The directives of a library and of its tables are gone through in order, and each is listed where it
comes first. What is listed after any number of them is told by those that have been gone through, so
a directive that comes again leaves no trace in the header.

* `FirstPlaces.enlist`, `FirstPlaces.foldl_enlist` : going on keeps the list what it should be;
* `FirstPlaces.unique`  : no other list is what it should be;
* `foldl_enlist_again`  : a directive that has come before can be left out;
* `Accepted.withIncludes` : whether a library is accepted does not hang on the directives;
* `directives_listed_once` : what the block of the header holds, and what does not change it.
-/

namespace GlyphTables

/-! ## First places -/

/-- `listed` holds what was asked for, in the order of the places at which it was asked for first. -/
structure FirstPlaces (asked listed : List String) : Prop where
  mem_iff : ∀ d, d ∈ listed ↔ d ∈ asked
  order : listed.Pairwise fun d e => asked.idxOf d < asked.idxOf e

namespace FirstPlaces

open Cpp (enlist enlist_of_mem enlist_of_notMem)

variable {asked listed listed' : List String} {d : String}

theorem nil : FirstPlaces [] [] :=
  ⟨fun _ => .rfl, .nil⟩

/-- The places of what was asked for already do not move when more is asked for. -/
theorem order_append (h : FirstPlaces asked listed) (more : List String) :
    listed.Pairwise fun d e => (asked ++ more).idxOf d < (asked ++ more).idxOf e := by
  refine h.order.imp_of_mem fun {d e} hd he before => ?_
  rwa [List.idxOf_append_of_mem ((h.mem_iff d).1 hd), List.idxOf_append_of_mem ((h.mem_iff e).1 he)]

theorem enlist (h : FirstPlaces asked listed) (d : String) :
    FirstPlaces (asked ++ [d]) (enlist listed d) := by
  by_cases known : d ∈ listed
  · rw [enlist_of_mem known]
    refine ⟨fun e => ?_, h.order_append [d]⟩
    rw [List.mem_append, List.mem_singleton, h.mem_iff]
    refine ⟨.inl, ?_⟩
    rintro (asked | rfl)
    · exact asked
    · exact (h.mem_iff e).1 known
  · rw [enlist_of_notMem known]
    refine ⟨fun e => ?_, ?_⟩
    · rw [List.mem_append, List.mem_append, h.mem_iff]
    · -- what is new has its place behind all that was asked for
      rw [List.pairwise_append]
      refine ⟨h.order_append [d], List.pairwise_singleton _ _, fun e he _ hd => ?_⟩
      rw [List.mem_singleton.1 hd]
      have he := (h.mem_iff e).1 he
      rw [List.idxOf_append_of_mem he, List.idxOf_append_of_notMem (mt (h.mem_iff d).2 known)]
      exact (List.idxOf_lt_length_of_mem he).trans_le (Nat.le_add_right _ _)

theorem foldl_enlist (h : FirstPlaces asked listed) (more : List String) :
    FirstPlaces (asked ++ more) (more.foldl Cpp.enlist listed) := by
  induction more generalizing asked listed with
  | nil => rwa [List.append_nil]
  | cons d more ih =>
    rw [List.append_cons]
    exact ih (h.enlist d)

theorem nodup (h : FirstPlaces asked listed) : listed.Nodup := by
  refine h.order.imp fun {d e} before => ?_
  rintro rfl
  exact lt_irrefl _ before

theorem count_eq_one (h : FirstPlaces asked listed) (mem : d ∈ asked) : listed.count d = 1 :=
  List.count_eq_one_of_mem h.nodup ((h.mem_iff d).2 mem)

/-- What is asked for decides what is listed, and in which order. -/
theorem unique (h : FirstPlaces asked listed) (h' : FirstPlaces asked listed') :
    listed = listed' := by
  have perm : listed.Perm listed' :=
    (List.perm_ext_iff_of_nodup h.nodup h'.nodup).2 fun d => (h.mem_iff d).trans (h'.mem_iff d).symm
  refine List.Perm.eq_of_pairwise (fun d e _ _ before after => ?_) h.order h'.order perm
  exact absurd after (Nat.lt_asymm before)

end FirstPlaces

/-! ## Directives that come again -/

/-- A table with other include directives. -/
def Table.withIncludes (table : Table) (includes : List String) : Table :=
  { table with metadata := { table.metadata with includes } }

theorem Table.WellNamed.withIncludes {table : Table} (h : table.WellNamed)
    (includes : List String) : (table.withIncludes includes).WellNamed :=
  ⟨h.name, h.symbolPrefix, h.entryNames, h.arrayNames, h.filled, h.distinctNames, h.distinctSymbols,
    h.distinctDataNames, h.unreserved⟩

theorem Table.Built.withIncludes {table : Table} (h : table.Built) (includes : List String) :
    (table.withIncludes includes).Built := by
  obtain ⟨named, filled⟩ := table.built_iff.1 h
  exact (Table.built_iff _).2 ⟨named.withIncludes includes, filled⟩

/-- A library in which one table has other include directives. -/
def Library.withIncludes (library : Library) (before : List Table) (table : Table)
    (includes : List String) (after : List Table) : Library :=
  { library with tables := before ++ table.withIncludes includes :: after }

variable {library : Library} {before after : List Table} {table : Table}

/-- Directives have no part in what makes a library acceptable. -/
theorem Library.Accepted.withIncludes (h : library.Accepted)
    (split : library.tables = before ++ table :: after) (includes : List String) :
    (library.withIncludes before table includes after).Accepted := by
  have outcome := outcome_of_assemble library
  rw [h.assembled] at outcome
  cases outcome with
  | accepted target apart unique =>
    have built := h.built
    rw [split] at apart unique built
    obtain ⟨builtBefore, builtAfter⟩ := List.forall_mem_append.1 built
    obtain ⟨builtTable, builtAfter⟩ := List.forall_mem_cons.1 builtAfter
    constructor
    · exact List.forall_mem_append.2 ⟨builtBefore,
        List.forall_mem_cons.2 ⟨builtTable.withIncludes includes, builtAfter⟩⟩
    · -- the names are all that is asked of the tables, and they are the same
      refine Outcome.outcome_assemble (.accepted target ?_ ?_)
      · rw [Apart, List.pairwise_append, List.pairwise_cons] at apart
        rw [Apart, Library.withIncludes, List.pairwise_append, List.pairwise_cons]
        obtain ⟨apartBefore, ⟨apartTable, apartAfter⟩, across⟩ := apart
        refine ⟨apartBefore, ⟨apartTable, apartAfter⟩, fun earlier mem => ?_⟩
        obtain ⟨fromTable, fromAfter⟩ := List.forall_mem_cons.1 (across earlier mem)
        exact List.forall_mem_cons.2 ⟨fromTable, fromAfter⟩
      · rw [List.flatMap_append, List.flatMap_cons] at unique
        rw [Library.withIncludes, List.flatMap_append, List.flatMap_cons]
        exact unique

namespace Cpp

theorem directives_eq (library : Library) (split : library.tables = before ++ table :: after) :
    directives library = library.includes ++ (before.flatMap fun t => t.metadata.includes) ++
      table.metadata.includes ++ after.flatMap fun t => t.metadata.includes := by
  rw [directives, split, List.flatMap_append, List.flatMap_cons]
  simp only [List.append_assoc]

/-- What comes again can be left out. -/
theorem foldl_enlist_again {front : List String} {d : String} (known : d ∈ front)
    (back : List String) :
    (front ++ d :: back).foldl enlist [] = (front ++ back).foldl enlist [] := by
  have listed : d ∈ front.foldl enlist [] :=
    ((FirstPlaces.nil.foldl_enlist front).mem_iff d).2 known
  rw [List.foldl_append, List.foldl_cons, enlist_of_mem listed, List.foldl_append]

/-- The header lists the directives of library and tables in the order of their first use. -/
theorem firstPlaces_includes (library : Library) :
    FirstPlaces (directives library) (includes library) := by
  rw [← foldl_enlist_directives]
  exact FirstPlaces.nil.foldl_enlist (directives library)

theorem includes_eq_nil_iff (library : Library) :
    includes library = [] ↔ directives library = [] := by
  have places := firstPlaces_includes library
  simp only [List.eq_nil_iff_forall_not_mem, places.mem_iff]

/-! ## The block -/

/-- The lines of a header above its include block. -/
def headerAbove (library : Library) (baseName : String) : List String :=
  preambleLines library.preamble ++ guardLines (includeGuard library.target baseName)

/-- The lines of a header below its include block. -/
def headerBelow (library : Library) (baseName : String) : List String :=
  openScope library.scope ++ headerBlocks library ++ closeScope library.scope ++
    ["", "#endif // " ++ includeGuard library.target baseName]

theorem writeHeader_eq_put_joined (library : Library) (baseName : String) :
    writeHeader library baseName =
      put (joined (headerAbove library baseName ++ includeLines library ++
        headerBelow library baseName)) := by
  rw [writeHeader_eq, header, writeDraft_map_some, headerLines]
  simp only [headerAbove, headerBelow, List.append_assoc]

theorem includeLines_eq (library : Library) :
    includeLines library = if directives library = [] then [] else includes library ++ [""] := by
  simp only [includeLines, List.isEmpty_iff, includes_eq_nil_iff]

theorem includeLines_eq_nil_iff (library : Library) :
    includeLines library = [] ↔ directives library = [] := by
  rw [includeLines_eq]
  split <;> simp [*]

/-- Lines that leave no text are no lines. -/
theorem joined_eq_empty_iff {lines : List String} : joined lines = "" ↔ lines = [] := by
  constructor
  · intro empty
    have bytes := encode_joined lines
    rw [empty] at bytes
    have none := List.flatMap_eq_nil_iff.1 bytes.symm
    exact List.eq_nil_iff_forall_not_mem.2 fun line mem => lineBytes_ne_nil line (none line mem)
  · rintro rfl
    rfl

/-- The header lacks the block only where no directive is asked for. -/
theorem writeHeader_eq_put_without_iff (library : Library) (baseName : String) :
    writeHeader library baseName =
        put (joined (headerAbove library baseName ++ headerBelow library baseName)) ↔
      directives library = [] := by
  rw [writeHeader_eq_put_joined, ← includeLines_eq_nil_iff]
  constructor
  · intro same
    have sizes := congrArg String.utf8ByteSize (put_injective same)
    simp only [joined_append, String.utf8ByteSize_append] at sizes
    rw [← joined_eq_empty_iff, ← String.utf8ByteSize_eq_zero_iff]
    omega
  · intro empty
    rw [empty, List.append_nil]

/-- Of the tables, the rest of a header says nothing that hangs on the directives. -/
theorem writeHeader_withIncludes (split : library.tables = before ++ table :: after)
    {includes' : List String}
    (same : includes (library.withIncludes before table includes' after) = includes library)
    (baseName : String) :
    writeHeader (library.withIncludes before table includes' after) baseName =
      writeHeader library baseName := by
  have blocks : headerBlocks (library.withIncludes before table includes' after) =
      headerBlocks library := by
    rw [headerBlocks, headerBlocks, split, Library.withIncludes, List.map_append, List.map_append]
    rfl
  rw [writeHeader_eq_put_joined, writeHeader_eq_put_joined, includeLines, same, headerBelow, blocks]
  rfl

/-- A directive that is listed before can be added to a table without a trace. -/
theorem includes_withIncludes_of_known (split : library.tables = before ++ table :: after)
    {front back : List String} (includes_eq : table.metadata.includes = front ++ back) {d : String}
    (known : d ∈ library.includes ∨ ∃ earlier ∈ before, d ∈ earlier.metadata.includes) :
    includes (library.withIncludes before table (front ++ d :: back) after) = includes library := by
  have listed : d ∈ library.includes ++ (before.flatMap fun t => t.metadata.includes) ++ front := by
    rw [List.mem_append, List.mem_append, List.mem_flatMap]
    exact .inl known
  have again := foldl_enlist_again listed (back ++ after.flatMap fun t => t.metadata.includes)
  have extended := directives_eq (library.withIncludes before table (front ++ d :: back) after) rfl
  rw [← foldl_enlist_directives, ← foldl_enlist_directives, directives_eq library split, includes_eq,
    extended]
  simpa only [Library.withIncludes, Table.withIncludes, List.append_assoc, List.cons_append]
    using again

/-- What the include block of a header is. -/
structure IncludeBlock (library : Library) (baseName : String) : Prop where
  /-- It stands between the include guard and the namespace. -/
  written : writeHeader library baseName =
    put (joined (headerAbove library baseName ++ includeLines library ++
      headerBelow library baseName))
  /-- The directives stand where they are first asked for, and an empty line follows them. -/
  lines : directives library ≠ [] →
    ∃ listed, includeLines library = listed ++ [""] ∧ FirstPlaces (directives library) listed ∧
      ∀ d ∈ directives library, listed.count d = 1
  /-- It is left out, with its empty line, exactly if there is no directive. -/
  absent_iff : writeHeader library baseName =
      put (joined (headerAbove library baseName ++ headerBelow library baseName)) ↔
    directives library = []

theorem includeBlock_writeHeader (library : Library) (baseName : String) :
    IncludeBlock library baseName where
  written := writeHeader_eq_put_joined library baseName
  lines asked := by
    have places := firstPlaces_includes library
    refine ⟨includes library, ?_, places, fun d mem => places.count_eq_one mem⟩
    rw [includeLines_eq, if_neg asked]
  absent_iff := writeHeader_eq_put_without_iff library baseName

/-- **The include block holds each directive once, where it is first asked for**, and there is no
other list that does. So a directive that the library or an earlier table asks for can be added to
any table, and the header stays as it is. -/
theorem directives_listed_once {library : Library} (h : library.Accepted) (baseName : String) :
    IncludeBlock library baseName ∧
      (∀ listed, FirstPlaces (directives library) listed → listed = includes library) ∧
      ∀ before table after front back d, library.tables = before ++ table :: after →
        table.metadata.includes = front ++ back →
        (d ∈ library.includes ∨ ∃ earlier ∈ before, d ∈ earlier.metadata.includes) →
        let extended := library.withIncludes before table (front ++ d :: back) after
        extended.Accepted ∧ writeHeader extended baseName = writeHeader library baseName := by
  refine ⟨includeBlock_writeHeader library baseName, fun listed places => ?_, ?_⟩
  · exact places.unique (firstPlaces_includes library)
  · intro before table after front back d split includes_eq known
    exact ⟨h.withIncludes split _, writeHeader_withIncludes split
      (includes_withIncludes_of_known split includes_eq known) baseName⟩

/-- A table with one directive. -/
def earlyTable : Table :=
  ⟨⟨"f", "F", .enumerated, "int", true, ["#include <b>"]⟩, [⟨"a", ⟨"v", "int", [1, 2], .decimal⟩⟩]⟩

/-- A table that asks for the same directive, after another. -/
def lateTable : Table :=
  ⟨⟨"g", "G", .array, "int", false, ["#include <c>", "#include <b>"]⟩,
    [⟨"a", ⟨"v", "int", [4], .decimal⟩⟩]⟩

def overlapping : Library where
  target := "t"
  scope := "n"
  includes := ["#include <b>", "#include <a>"]
  preamble := ""
  tables := [earlyTable, lateTable]

theorem directives_listed_once_overlapping :
    overlapping.Accepted ∧
      writeHeader overlapping "x" =
        put (joined (headerAbove overlapping "x" ++
          ["#include <b>", "#include <a>", "#include <c>", ""] ++ headerBelow overlapping "x")) ∧
      let extended := overlapping.withIncludes [earlyTable] lateTable
        ["#include <c>", "#include <a>", "#include <b>"] []
      extended.Accepted ∧ writeHeader extended "x" = writeHeader overlapping "x" := by
  have accepted : overlapping.Accepted := by decide +kernel
  obtain ⟨block, -, again⟩ := directives_listed_once accepted "x"
  refine ⟨accepted, ?_, ?_⟩
  · have lines : includeLines overlapping =
        ["#include <b>", "#include <a>", "#include <c>", ""] := by decide +kernel
    rw [block.written, lines]
  · exact again [earlyTable] lateTable [] ["#include <c>"] ["#include <b>"] "#include <a>" rfl rfl
      (.inl (by decide))

end Cpp

end GlyphTables
