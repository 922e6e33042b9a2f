import GlyphTables.Cpp.File

/-!
# The generated code line by line

Each line that is written says one thing about the names of the code. This file keeps what the
lines say beside their text, so that the code can be read in the order in which it is written.

* `map_text?_headerCode`, `map_text?_sourceCode` : the texts of the lines are the generated files;
* `names_headerCode`, `names_sourceCode` : only the blocks of the tables introduce names;
* `split_unique` : where no name is introduced twice, a name is introduced at one place only.
-/

namespace GlyphTables.Cpp

/-- A line of the generated code. -/
inductive Line where
  /-- A line that introduces no name. -/
  | plain (text : String)
  | openEnumeration (name : String)
  | enumerator (name : String)
  | lastEnumerator (name : String)
  | closeEnumeration (name : String)
  /-- An array that is defined elsewhere. -/
  | declaration (d : Declarator)
  /-- An array of numbers. -/
  | definition (d : Definition)
  /-- The start of an array whose elements are arrays of numbers. -/
  | openArray (d : Declarator)
  | element (name : String)
  | closeArray

/-- The text that stands for a line in the generated files, letter by letter; a definition has none
where one of its numbers has no literal. -/
def Line.text? : Line → Option String
  | plain text => some text
  | openEnumeration name => some ("enum " ++ name ++ " \x7b")
  | enumerator name => some ("  " ++ name ++ ",")
  | lastEnumerator name => some ("  " ++ name)
  | closeEnumeration name => some ("\x7d; // enum " ++ name)
  | declaration d =>
    some ("extern const " ++ d.elementType ++ " " ++ d.name ++ "[" ++ d.bound ++ "];")
  | definition d =>
    (d.values.mapM d.style.render?).map fun literals =>
      (if d.isStatic then "static const " else "const ") ++ d.declarator.elementType ++ " " ++
        d.declarator.name ++ "[" ++ d.declarator.bound ++ "] = \x7b " ++
        ", ".intercalate literals ++ " \x7d;"
  | openArray d => some ("const " ++ d.elementType ++ " " ++ d.name ++ "[" ++ d.bound ++ "] = \x7b")
  | element name => some ("  " ++ name ++ ",")
  | closeArray => some "\x7d;"

theorem text?_declaration (d : Declarator) : (Line.declaration d).text? = some (externLine d) := by
  rw [Line.text?, Option.some_inj, ← String.toList_inj]
  simp [externLine, Declarator.text]

theorem text?_openArray (d : Declarator) :
    (Line.openArray d).text? = some (d.text ++ " = \x7b") := by
  rw [Line.text?, Option.some_inj, ← String.toList_inj]
  simp [Declarator.text]

theorem text?_definition (d : Definition) : (Line.definition d).text? = d.line? := by
  rw [Line.text?, Definition.line?, Definition.initializer?, Option.map_map]
  refine congrArg (Option.map · _) (funext fun literals => ?_)
  rw [← String.toList_inj]
  cases h : d.isStatic <;> simp [Definition.linkage, Declarator.text, h]

/-! ## The blocks -/

def Enumeration.code (e : Enumeration) : List Line :=
  [.openEnumeration e.name] ++ e.enumerators.map .enumerator ++
    [.lastEnumerator e.count, .closeEnumeration e.name]

def HeaderBlock.code (block : HeaderBlock) : List Line :=
  let enumeration :=
    match block.enumeration with
    | none => []
    | some e => e.code ++ [.plain ""]
  let aliases :=
    match block.aliases with
    | none => []
    | some ds => .plain "" :: ds.map .declaration
  enumeration ++ [.declaration block.array] ++ aliases

def Row.code (row : Row) : List Line :=
  let label :=
    match row.label with
    | none => []
    | some symbol => [.plain ("  // " ++ symbol)]
  label ++ [.element row.name]

def SourceBlock.code (block : SourceBlock) : List Line :=
  block.data.map .definition ++ [.plain "", .openArray block.array] ++
    block.rows.flatMap Row.code ++ [.closeArray]

theorem map_text?_plain (lines : List String) :
    (lines.map Line.plain).map Line.text? = lines.map some := by
  simp [Function.comp_def, Line.text?]

theorem map_text?_enumeration (e : Enumeration) :
    e.code.map Line.text? = e.lines.map some := by
  simp [Enumeration.code, Enumeration.lines, Line.text?, Function.comp_def]

theorem map_text?_headerBlock (block : HeaderBlock) :
    block.code.map Line.text? = block.lines.map some := by
  have gap : Line.text? (.plain "") = some "" := rfl
  unfold HeaderBlock.code HeaderBlock.lines
  cases block.enumeration <;> cases block.aliases <;>
    simp [map_text?_enumeration, text?_declaration, gap, Function.comp_def]

theorem map_text?_row (row : Row) : row.code.map Line.text? = row.lines.map some := by
  unfold Row.code Row.lines
  cases row.label <;> simp [Line.text?]

/-- The array of a table, without the data before it, is mere text. -/
theorem map_text?_array (block : SourceBlock) :
    ([Line.plain "", .openArray block.array] ++ block.rows.flatMap Row.code ++
        [Line.closeArray]).map Line.text? =
      (["", block.array.text ++ " = \x7b"] ++ block.rows.flatMap Row.lines ++ ["\x7d;"]).map
        some := by
  have opened := text?_openArray block.array
  have gap : Line.text? (.plain "") = some "" := rfl
  have last : Line.text? .closeArray = some "\x7d;" := rfl
  simp only [List.map_append, List.map_cons, List.map_nil, List.map_flatMap, map_text?_row, opened,
    gap, last]

theorem map_text?_sourceBlock (block : SourceBlock) :
    block.code.map Line.text? = block.lines := by
  have data : (block.data.map Line.definition).map Line.text? = block.data.map Definition.line? := by
    rw [List.map_map]
    exact List.map_congr_left fun d _ => text?_definition d
  rw [SourceBlock.code, SourceBlock.lines, ← map_text?_array, ← data, List.append_assoc,
    List.append_assoc, List.append_assoc, List.map_append]

/-! ## The files -/

/-- A beginning and an end without names, and between them blocks with empty lines between them. -/
def page (top : List String) (blocks : List (List Line)) (bottom : List String) : List Line :=
  top.map .plain ++ [.plain ""].intercalate blocks ++ bottom.map .plain

def headerCode (library : Library) (baseName : String) : List Line :=
  let guard := includeGuard library.target baseName
  page
    (preambleLines library.preamble ++ guardLines guard ++ includeLines library ++
      openScope library.scope)
    (library.tables.map fun table => (headerBlock table).code)
    (closeScope library.scope ++ ["", "#endif // " ++ guard])

def sourceCode (library : Library) (baseName : String) : List Line :=
  page (["#include \"" ++ baseName ++ ".h\"", ""] ++ openScope library.scope)
    (library.tables.map fun table => (sourceBlock table).code) (closeScope library.scope)

theorem map_intercalate {α β : Type} (f : α → β) (gap : List α) (lists : List (List α)) :
    (gap.intercalate lists).map f = (gap.map f).intercalate (lists.map (List.map f)) := by
  induction lists with
  | nil => rfl
  | cons first rest ih =>
    cases rest with
    | nil => simp
    | cons second rest => simp [List.intercalate_cons_cons, ih]

theorem map_text?_page (top : List String) (blocks : List (List Line)) (bottom : List String) :
    (page top blocks bottom).map Line.text? =
      top.map some ++ [some ""].intercalate (blocks.map (List.map Line.text?)) ++
        bottom.map some := by
  rw [page, List.map_append, List.map_append, map_intercalate, map_text?_plain, map_text?_plain]
  rfl

/-- The lines of the code, spelled out one by one, are the header. -/
theorem map_text?_headerCode (library : Library) (baseName : String) :
    (headerCode library baseName).map Line.text? = header library baseName := by
  rw [headerCode, map_text?_page, List.map_map, header, headerLines, headerBlocks]
  simp only [List.map_append, map_intercalate, List.map_map, Function.comp_def,
    map_text?_headerBlock, List.map_cons, List.map_nil, List.append_assoc]

/-- The lines of the code, spelled out one by one, are the source. -/
theorem map_text?_sourceCode (library : Library) (baseName : String) :
    (sourceCode library baseName).map Line.text? = source library baseName := by
  rw [sourceCode, map_text?_page, List.map_map, source, sourceBlocks]
  simp only [List.map_append, Function.comp_def, map_text?_sourceBlock]

/-! ## Names -/

/-- The name that a line introduces. An element only uses the name of an array. -/
def Line.name? : Line → Option String
  | plain _ => none
  | openEnumeration name => some name
  | enumerator name => some name
  | lastEnumerator name => some name
  | closeEnumeration _ => none
  | declaration d => some d.name
  | definition d => some d.declarator.name
  | openArray d => some d.name
  | element _ => none
  | closeArray => none

/-- The names that code introduces, in order. -/
def names (code : List Line) : List String :=
  code.filterMap Line.name?

@[simp] theorem names_nil : names [] = [] := by
  rw [names, List.filterMap_nil]

@[simp] theorem names_cons (line : Line) (code : List Line) :
    names (line :: code) = line.name?.toList ++ names code := by
  cases h : line.name? <;> simp [names, h]

@[simp] theorem names_append (a b : List Line) : names (a ++ b) = names a ++ names b :=
  List.filterMap_append

theorem mem_names {code : List Line} {line : Line} {name : String} (mem : line ∈ code)
    (named : line.name? = some name) : name ∈ names code :=
  List.mem_filterMap.2 ⟨line, mem, named⟩

theorem names_map {α : Type} {write : α → Line} {name : α → String}
    (named : ∀ x, (write x).name? = some (name x)) (xs : List α) :
    names (xs.map write) = xs.map name := by
  have same : Line.name? ∘ write = some ∘ name := funext named
  rw [names, List.filterMap_map, same, List.filterMap_eq_map]

theorem names_plain (lines : List String) : names (lines.map .plain) = [] := by
  simp [names, Line.name?]

theorem names_intercalate (blocks : List (List Line)) :
    names ([.plain ""].intercalate blocks) = blocks.flatMap names := by
  induction blocks with
  | nil => rfl
  | cons first rest ih =>
    cases rest with
    | nil => simp
    | cons second rest =>
      rw [List.intercalate_cons_cons, names_append, names_append, ih, List.flatMap_cons]
      simp [Line.name?]

theorem names_page (top : List String) (blocks : List (List Line)) (bottom : List String) :
    names (page top blocks bottom) = blocks.flatMap names := by
  rw [page, names_append, names_append, names_plain, names_plain, names_intercalate,
    List.nil_append, List.append_nil]

theorem names_headerCode (library : Library) (baseName : String) :
    names (headerCode library baseName) =
      library.tables.flatMap fun table => names (headerBlock table).code := by
  rw [headerCode, names_page, List.flatMap_map]

theorem names_sourceCode (library : Library) (baseName : String) :
    names (sourceCode library baseName) =
      library.tables.flatMap fun table => names (sourceBlock table).code := by
  rw [sourceCode, names_page, List.flatMap_map]

/-! ## Places -/

/-- Each block stands somewhere in the whole. -/
theorem exists_split_of_mem_intercalate (gap : List Line) {block : List Line}
    {blocks : List (List Line)} (mem : block ∈ blocks) :
    ∃ front back, gap.intercalate blocks = front ++ block ++ back := by
  induction blocks with
  | nil => cases mem
  | cons first rest ih =>
    cases rest with
    | nil =>
      refine ⟨[], [], ?_⟩
      rw [List.mem_singleton.1 mem]
      simp
    | cons second rest =>
      rw [List.intercalate_cons_cons]
      obtain rfl | mem := List.mem_cons.1 mem
      · exact ⟨[], gap ++ gap.intercalate (second :: rest), by simp⟩
      · obtain ⟨front, back, split⟩ := ih mem
        exact ⟨first ++ gap ++ front, back, by simp [split]⟩

theorem exists_split_page {blocks : List (List Line)} {block : List Line} (mem : block ∈ blocks)
    (top bottom : List String) :
    ∃ front back, page top blocks bottom = front ++ block ++ back := by
  obtain ⟨front, back, split⟩ := exists_split_of_mem_intercalate [.plain ""] mem
  refine ⟨top.map .plain ++ front, back ++ bottom.map .plain, ?_⟩
  rw [page, split]
  simp only [List.append_assoc]

theorem exists_split_headerCode {library : Library} {table : Table}
    (mem : table ∈ library.tables) (baseName : String) :
    ∃ front back, headerCode library baseName = front ++ (headerBlock table).code ++ back :=
  exists_split_page (List.mem_map_of_mem mem) _ _

theorem exists_split_sourceCode {library : Library} {table : Table}
    (mem : table ∈ library.tables) (baseName : String) :
    ∃ front back, sourceCode library baseName = front ++ (sourceBlock table).code ++ back :=
  exists_split_page (List.mem_map_of_mem mem) _ _

theorem mem_intercalate {α : Type} {gap : List α} {blocks : List (List α)} {x : α}
    (mem : x ∈ gap.intercalate blocks) : x ∈ gap ∨ ∃ block ∈ blocks, x ∈ block := by
  induction blocks with
  | nil => simp at mem
  | cons first rest ih =>
    cases rest with
    | nil => exact .inr ⟨first, List.mem_cons_self, by simpa using mem⟩
    | cons second rest =>
      rw [List.intercalate_cons_cons, List.mem_append, List.mem_append] at mem
      obtain (mem | mem) | mem := mem
      · exact .inr ⟨first, List.mem_cons_self, mem⟩
      · exact .inl mem
      · exact (ih mem).imp_right fun ⟨block, blockMem, inBlock⟩ =>
          ⟨block, List.mem_cons_of_mem _ blockMem, inBlock⟩

/-- A line that is not mere text stands in one of the blocks. -/
theorem mem_page {top bottom : List String} {blocks : List (List Line)} {line : Line}
    (mem : line ∈ page top blocks bottom) :
    (∃ text, line = .plain text) ∨ ∃ block ∈ blocks, line ∈ block := by
  rw [page, List.mem_append, List.mem_append] at mem
  obtain (mem | mem) | mem := mem
  · obtain ⟨text, -, rfl⟩ := List.mem_map.1 mem
    exact .inl ⟨text, rfl⟩
  · obtain gap | inBlock := mem_intercalate mem
    · exact .inl ⟨"", List.mem_singleton.1 gap⟩
    · exact .inr inBlock
  · obtain ⟨text, -, rfl⟩ := List.mem_map.1 mem
    exact .inl ⟨text, rfl⟩

/-- The source defines arrays of numbers for the entries only. -/
theorem exists_entry_of_definition_mem {library : Library} {baseName : String} {d : Definition}
    (mem : .definition d ∈ sourceCode library baseName) :
    ∃ table ∈ library.tables, ∃ entry ∈ table.entries, d = entryDefinition table entry := by
  obtain ⟨text, plain⟩ | ⟨block, blockMem, mem⟩ := mem_page mem
  · cases plain
  · obtain ⟨table, tableMem, rfl⟩ := List.mem_map.1 blockMem
    refine ⟨table, tableMem, ?_⟩
    simp only [SourceBlock.code, sourceBlock, List.mem_append, List.mem_map, List.mem_flatMap,
      List.mem_cons, List.not_mem_nil, or_false, reduceCtorEq] at mem
    obtain ⟨_, ⟨entry, entryMem, rfl⟩, same⟩ | ⟨row, -, mem⟩ := mem
    · exact ⟨entry, entryMem, (Line.definition.inj same).symm⟩
    · unfold Row.code at mem
      cases h : row.label <;> simp [h] at mem

/-- Where no name is introduced twice, a name is introduced at one place only. -/
theorem split_unique {code before before' rest rest' : List Line} {line line' : Line}
    {name : String} (once : (names code).Nodup) (split : code = before ++ line :: rest)
    (split' : code = before' ++ line' :: rest') (named : line.name? = some name)
    (named' : line'.name? = some name) : before = before' ∧ line = line' ∧ rest = rest' := by
  induction before generalizing code before' with
  | nil =>
    cases before' with
    | nil =>
      obtain ⟨rfl, rfl⟩ := List.cons.inj (split.symm.trans split')
      exact ⟨rfl, rfl, rfl⟩
    | cons first before' =>
      obtain ⟨rfl, rfl⟩ := List.cons.inj (split.symm.trans split')
      -- The name of the first line would come again further down.
      have again : name ∈ names (before' ++ line' :: rest') := mem_names (by simp) named'
      rw [split', List.cons_append, names_cons, named] at once
      exact absurd again (List.nodup_cons.1 once).1
  | cons first before ih =>
    cases before' with
    | nil =>
      obtain ⟨rfl, rfl⟩ := List.cons.inj (split.symm.trans split')
      have again : name ∈ names (before ++ line :: rest) := mem_names (by simp) named
      rw [split, List.cons_append, names_cons, named'] at once
      exact absurd again (List.nodup_cons.1 once).1
    | cons first' before' =>
      obtain ⟨rfl, tails⟩ := List.cons.inj (split.symm.trans split')
      have once : (names (before ++ line :: rest)).Nodup :=
        once.sublist (split ▸ (List.sublist_cons_self _ _).filterMap _)
      obtain ⟨rfl, rfl, rfl⟩ := ih once rfl tails
      exact ⟨rfl, rfl, rfl⟩

/-- Where no name is introduced twice, two lines that introduce the same name are one. -/
theorem line_unique {code : List Line} (once : (names code).Nodup) {line line' : Line}
    {name : String} (mem : line ∈ code) (mem' : line' ∈ code) (named : line.name? = some name)
    (named' : line'.name? = some name) : line = line' := by
  obtain ⟨before, rest, split⟩ := List.append_of_mem mem
  obtain ⟨before', rest', split'⟩ := List.append_of_mem mem'
  exact (split_unique once split split' named named').2.1

end GlyphTables.Cpp
