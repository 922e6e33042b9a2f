import GlyphTables.Cpp.Emission
import GlyphTables.Proofs.Cpp.Writing
import GlyphTables.Proofs.Library.Assembly

/-!
# Writers that fail

Whatever the number of pieces, writing a file comes to writing one text. So a writer that fails has
taken a beginning of that text, wherever it fails, and is offered nothing after it.

* `writeTables_eq_separated` : the tables are written one by one, with line breaks in between;
* `writeHeader_eq`, `writeSource_eq` : the pieces make up the lines of the draft;
* `writeDraft_map_some`  : lines that can be written are as good as their text;
* `deliver_eq_ofRun`     : `deliver` is what becomes of writing a draft;
* `cut_anywhere`         : a failing writer cuts the text where it fails, and the failure is told.
-/

namespace GlyphTables.Cpp

/-! ## Drafts as programs -/

def writeLine : Option String → Write Unit
  | none => throw .refused
  | some line => put (line ++ "\n")

def writeDraft (draft : Draft) : Write Unit :=
  forM draft writeLine

theorem writeDraft_append (d e : Draft) :
    (do writeDraft d; writeDraft e) = writeDraft (d ++ e) :=
  List.forM_append.symm

/-- A line is written in pieces, and lands in the file as one. -/
theorem putLine_eq_writeDraft (pieces : List String) :
    putLine pieces = writeDraft [some (String.join pieces)] := by
  rw [putLine_eq, writeDraft, List.forM_cons, List.forM_nil, writeLine]
  exact (bind_pure_unit).symm

theorem forM_writeDraft {α : Type} (xs : List α) (lines : α → Draft) :
    (forM xs fun x => writeDraft (lines x)) = writeDraft (xs.flatMap lines) := by
  induction xs with
  | nil => rfl
  | cons x rest ih => rw [List.forM_cons, ih, writeDraft_append, List.flatMap_cons]

/-! ## The parts of the files -/

theorem writeOpening_eq (scope : String) :
    writeOpening scope = writeDraft ((openScope scope).map some) := by
  unfold writeOpening openScope
  split
  · rfl
  · simp only [putLine_eq_writeDraft, writeDraft_append]
    rfl

theorem writeClosing_eq (scope : String) :
    writeClosing scope = writeDraft ((closeScope scope).map some) := by
  unfold writeClosing closeScope
  split
  · rfl
  · simp only [putLine_eq_writeDraft, writeDraft_append]
    rfl

theorem writePreamble_eq (preamble : String) :
    writePreamble preamble = writeDraft ((preambleLines preamble).map some) := by
  unfold writePreamble preambleLines
  split
  · rfl
  · simp only [putLine_eq_writeDraft, writeDraft_append]
    simp

/-- Listing directives one by one keeps the first of each. -/
theorem foldl_enlist (directives : List String) :
    directives.foldl enlist [] = directives.eraseDups := by
  induction directives using List.reverseRecOn with
  | nil => rfl
  | append_singleton front directive ih =>
    rw [List.foldl_append, ih, List.foldl_cons, List.foldl_nil, List.eraseDups_append]
    by_cases known : directive ∈ front
    · rw [enlist_of_mem (List.mem_eraseDups.2 known)]
      simp [List.removeAll, known]
    · rw [enlist_of_notMem (mt List.mem_eraseDups.1 known)]
      simp [List.removeAll, known, List.eraseDups_cons]

theorem foldl_enlist_directives (library : Library) :
    (directives library).foldl enlist [] = includes library :=
  foldl_enlist (directives library)

theorem writeIncludes_eq (library : Library) :
    writeIncludes (includes library) = writeDraft ((includeLines library).map some) := by
  unfold writeIncludes includeLines
  split
  · rfl
  · simp only [putLine_eq_writeDraft, forM_writeDraft, writeDraft_append]
    simp [List.map_eq_flatMap]

theorem writeExtern_eq (d : Declarator) : writeExtern d = writeDraft [some (externLine d)] := by
  have words : ∀ rest : String, "extern " ++ ("const " ++ rest) = "extern const " ++ rest := by
    intro rest
    rw [← String.append_assoc]
    rfl
  rw [writeExtern, putLine_eq_writeDraft]
  simp [externLine, Declarator.text, String.append_assoc, words]

theorem intercalate_cons_eq_flatMap {α : Type} (gap first : List α) (rest : List (List α)) :
    gap.intercalate (first :: rest) = first ++ rest.flatMap (gap ++ ·) := by
  induction rest generalizing first with
  | nil => simp
  | cons second rest ih =>
    rw [List.intercalate_cons_cons, ih, List.flatMap_cons, List.append_assoc, List.append_assoc]

/-! ## The tables -/

/-- The programs one after the other, with a line break between each two. -/
def separated : List (Write Unit) → Write Unit
  | [] => pure ()
  | [write] => write
  | write :: rest => do
    write
    put "\n"
    separated rest

/-- A program after a line break. -/
def further (write : Write Unit) : Write Unit := do
  put "\n"
  write

theorem separated_cons (write : Write Unit) (rest : List (Write Unit)) :
    separated (write :: rest) = (do write; forM rest further) := by
  induction rest generalizing write with
  | nil => exact bind_pure_unit.symm
  | cons second rest ih =>
    rw [separated, ih, List.forM_cons, further]
    · simp only [bind_assoc]
    · exact List.cons_ne_nil _ _

theorem writeTables_eq_separated (write : Table → Write Unit) (tables : List Table) :
    writeTables write tables = separated (tables.map write) := by
  have later : ∀ (rest : List Table) (k : Nat),
      forM (rest.zipIdx (k + 1)) (writeApart write) = forM (rest.map write) further := by
    intro rest
    induction rest with
    | nil => exact fun _ => rfl
    | cons table rest ih =>
      intro k
      rw [List.zipIdx_cons, List.forM_cons, ih, List.map_cons, List.forM_cons, writeApart,
        if_pos (Nat.succ_ne_zero k), putLine_eq]
      rfl
  unfold writeTables
  cases tables with
  | nil => rfl
  | cons table rest =>
    rw [List.zipIdx_cons, List.forM_cons, later, List.map_cons, separated_cons, writeApart,
      if_neg (not_not_intro rfl)]

theorem writeTables_eq {write : Table → Write Unit} {lines : Table → Draft}
    (h : ∀ table, write table = writeDraft (lines table)) (tables : List Table) :
    writeTables write tables = writeDraft ([some ""].intercalate (tables.map lines)) := by
  have gap : put "\n" = writeDraft [some ""] :=
    (putLine_eq []).symm.trans (putLine_eq_writeDraft [])
  have later : ∀ table, further (write table) = writeDraft ([some ""] ++ lines table) := by
    intro table
    rw [further, h, gap, writeDraft_append]
  rw [writeTables_eq_separated]
  cases tables with
  | nil => rfl
  | cons table rest =>
    rw [List.map_cons, separated_cons, List.forM_map, funext later, forM_writeDraft, List.map_cons,
      intercalate_cons_eq_flatMap, List.flatMap_map, h]
    exact writeDraft_append (lines table) _

/-! ## The blocks of a table -/

theorem writeEnumeration_eq (table : Table) :
    writeEnumeration table =
      writeDraft ((match enumeration? table with
        | none => []
        | some e => e.lines ++ [""]).map some) := by
  unfold writeEnumeration enumeration? countExpression
  cases table.metadata.kind with
  | array => rfl
  | enumerated =>
    simp only [putLine_eq_writeDraft, forM_writeDraft, writeDraft_append]
    simp [Enumeration.lines, List.map_eq_flatMap, List.flatMap_assoc, String.append_assoc]

theorem writeAliases_eq (table : Table) :
    writeAliases table =
      writeDraft ((match (headerBlock table).aliases with
        | none => []
        | some ds => [""] ++ ds.map externLine).map some) := by
  unfold writeAliases headerBlock
  cases table.metadata.useAliases with
  | false => rfl
  | true =>
    simp only [if_true, writeExtern_eq, putLine_eq_writeDraft, forM_writeDraft, writeDraft_append]
    simp [List.map_eq_flatMap, List.flatMap_assoc]

theorem writeDeclaration_eq (table : Table) :
    writeDeclaration table = writeDraft ((headerBlock table).lines.map some) := by
  unfold writeDeclaration HeaderBlock.lines
  rw [writeEnumeration_eq, writeExtern_eq, writeAliases_eq, writeDraft_append, writeDraft_append,
    List.map_append, List.map_append, List.append_assoc]
  rfl

theorem writeData_eq (table : Table) (entry : Table.Entry) :
    writeData table entry = writeDraft [(entryDefinition table entry).line?] := by
  unfold writeData entryDefinition Definition.line? Definition.initializer? DataArray.literals?
  cases entry.array.values.mapM entry.array.style.render? with
  | none => rfl
  | some literals =>
    simp only [putLine_eq_writeDraft, Definition.linkage, Declarator.text, Option.map_some]
    cases table.metadata.useAliases <;> simp [String.append_assoc]

theorem writeRow_eq (table : Table) (entry : Table.Entry) :
    writeRow table entry = writeDraft ((entryRow table entry).lines.map some) := by
  unfold writeRow entryRow Row.lines
  cases table.metadata.kind <;>
    simp [putLine_eq_writeDraft, writeDraft_append, String.append_assoc]

theorem writeDefinition_eq (table : Table) :
    writeDefinition table = writeDraft (sourceBlock table).lines := by
  have data : writeData table = fun entry => writeDraft [(entryDefinition table entry).line?] :=
    funext (writeData_eq table)
  have rows : writeRow table = fun entry => writeDraft ((entryRow table entry).lines.map some) :=
    funext (writeRow_eq table)
  unfold writeDefinition
  simp only [putLine_eq_writeDraft, data, rows, forM_writeDraft, writeDraft_append]
  simp [sourceBlock, SourceBlock.lines, Declarator.text, List.map_eq_flatMap, List.flatMap_assoc,
    String.append_assoc]

/-! ## The files -/

/-- What the writers of the header do, one after the other, is to write its lines. -/
theorem writeHeader_eq (library : Library) (baseName : String) :
    writeHeader library baseName = writeDraft (header library baseName) := by
  have blocks := writeTables_eq writeDeclaration_eq library.tables
  unfold writeHeader header headerLines headerBlocks guardLines
  simp only [putLine_eq_writeDraft, writePreamble_eq, foldl_enlist_directives, writeIncludes_eq,
    writeOpening_eq, blocks, writeClosing_eq, writeDraft_append]
  simp [map_intercalate, Function.comp_def]

/-- What the writers of the source do, one after the other, is to write its lines. -/
theorem writeSource_eq (library : Library) (baseName : String) :
    writeSource library baseName = writeDraft (source library baseName) := by
  have blocks := writeTables_eq writeDefinition_eq library.tables
  unfold writeSource source sourceBlocks
  simp only [putLine_eq_writeDraft, writeOpening_eq, blocks, writeClosing_eq, writeDraft_append]
  simp [String.append_assoc]

/-! ## What becomes of a draft -/

/-- What a writer has taken, and how the writing has ended. -/
def Delivery.ofRun : Except Stop Unit × Writer → Delivery
  | (.ok _, writer) => ⟨writer.written, .complete⟩
  | (.error .full, writer) => ⟨writer.written, .full⟩
  | (.error .refused, writer) => ⟨writer.written, .refused⟩

theorem deliver_of_fits {line : String} {n : Nat} (h : (lineBytes line).length ≤ n)
    (rest : Draft) :
    deliver (some n) (some line :: rest) =
      ⟨lineBytes line ++ (deliver (some (n - (lineBytes line).length)) rest).written,
        (deliver (some (n - (lineBytes line).length)) rest).ending⟩ := by
  simp [deliver, fits, h]

/-- Of a line that does not fit as much is written as there is room for. -/
theorem deliver_of_not_fits {line : String} {n : Nat} (h : n < (lineBytes line).length)
    (rest : Draft) :
    deliver (some n) (some line :: rest) = ⟨(lineBytes line).take n, .full⟩ := by
  simp [deliver, fits, h]

theorem Delivery.written_ofRun (run : Except Stop Unit × Writer) :
    (ofRun run).written = run.2.written := by
  obtain ⟨_ | _, writer⟩ := run
  case error stop => cases stop <;> rfl
  case ok => rfl

theorem Delivery.ending_ofRun_eq_full_iff (run : Except Stop Unit × Writer) :
    (ofRun run).ending = .full ↔ run.1 = .error .full := by
  obtain ⟨_ | _, writer⟩ := run
  case error stop => cases stop <;> simp [ofRun]
  case ok => simp [ofRun]

/-- Writing after other writing is like writing into the room that is left. -/
theorem ofRun_writeDraft (draft : Draft) (written : List UInt8) (room : Option Nat) :
    Delivery.ofRun (writeDraft draft ⟨written, room⟩) =
      ⟨written ++ (deliver room draft).written, (deliver room draft).ending⟩ := by
  induction draft generalizing written room with
  | nil =>
    change (⟨written, .complete⟩ : Delivery) = ⟨written ++ [], .complete⟩
    rw [List.append_nil]
  | cons line rest ih =>
    rw [writeDraft, List.forM_cons, ← writeDraft]
    cases line with
    | none =>
      change (⟨written, .refused⟩ : Delivery) = ⟨written ++ [], .refused⟩
      rw [List.append_nil]
    | some line =>
      cases room with
      | none =>
        have taken : put (line ++ "\n") ⟨written, none⟩ =
            (.ok (), ⟨written ++ lineBytes line, none⟩) := rfl
        rw [writeLine, bind_of_ok taken, ih]
        simp [deliver, fits]
      | some n =>
        by_cases enough : (lineBytes line).length ≤ n
        · have taken : put (line ++ "\n") ⟨written, some n⟩ =
              (.ok (), ⟨written ++ lineBytes line, some (n - (lineBytes line).length)⟩) :=
            put_of_fits enough written
          rw [writeLine, bind_of_ok taken, ih, deliver_of_fits enough, List.append_assoc]
        · have enough := Nat.not_le.1 enough
          have failed : put (line ++ "\n") ⟨written, some n⟩ =
              (.error .full, ⟨written ++ (lineBytes line).take n, none⟩) :=
            put_of_not_fits enough written
          rw [writeLine, bind_of_error failed, deliver_of_not_fits enough, Delivery.ofRun]

theorem deliver_eq_ofRun (draft : Draft) (room : Option Nat) :
    deliver room draft = Delivery.ofRun (writeDraft draft ⟨[], room⟩) := by
  rw [ofRun_writeDraft, List.nil_append]

/-! ## Texts as programs -/

/-- Lines that can be written are as good as the text that they make up. -/
theorem writeDraft_map_some (lines : List String) :
    writeDraft (lines.map some) = put (joined lines) := by
  induction lines with
  | nil => exact put_empty.symm
  | cons line rest ih =>
    rw [List.map_cons, writeDraft, List.forM_cons, ← writeDraft, ih, writeLine, put_append,
      joined_cons]

theorem writeDraft_eq_put {draft : Draft} {text : String} (said : text? draft = some text) :
    writeDraft draft = put text := by
  obtain ⟨lines, rfl, rfl⟩ := text?_eq_some_iff.1 said
  exact writeDraft_map_some lines

/-- A text can be told from what writing it does. -/
theorem put_injective {s t : String} (same : put s = put t) : s = t := by
  have taken : (Except.ok (), Writer.mk (Utf8.encode s) none) =
      ((.ok (), ⟨Utf8.encode t, none⟩) : Except Stop Unit × Writer) := congrFun same ⟨[], none⟩
  simp only [Prod.mk.injEq, Writer.mk.injEq, true_and, and_true] at taken
  have decoded := Utf8.decode?_eq_some_iff.2 taken
  exact Option.some.inj (decoded.symm.trans (Utf8.decode?_eq_some_iff.2 rfl))

/-- Where a line cannot be written, there is a first such line. -/
theorem exists_split_of_text?_eq_none {draft : Draft} (unsaid : text? draft = none) :
    ∃ (lines : List String) (rest : Draft), draft = lines.map some ++ none :: rest := by
  obtain ⟨before, rest, rfl, said⟩ := List.eq_append_cons_of_mem (text?_eq_none_iff.1 unsaid)
  rw [← text?_eq_none_iff, ← ne_eq, Option.ne_none_iff_exists'] at said
  obtain ⟨text, said⟩ := said
  obtain ⟨lines, rfl, -⟩ := text?_eq_some_iff.1 said
  exact ⟨lines, rest, rfl⟩

/-- Nothing is written from the first line on that cannot be written. -/
theorem writeDraft_map_some_append_none (lines : List String) (rest : Draft) :
    writeDraft (lines.map some ++ none :: rest) = (do put (joined lines); throw .refused) := by
  rw [← writeDraft_append, writeDraft_map_some]
  rfl

theorem writeDraft_eq_put_iff {draft : Draft} {text : String} :
    writeDraft draft = put text ↔ text? draft = some text := by
  refine ⟨fun same => ?_, writeDraft_eq_put⟩
  cases said : text? draft with
  | none =>
    obtain ⟨lines, rest, rfl⟩ := exists_split_of_text?_eq_none said
    rw [writeDraft_map_some_append_none] at same
    have run : (Except.error .refused, Writer.mk (Utf8.encode (joined lines)) none) =
        ((.ok (), ⟨Utf8.encode text, none⟩) : Except Stop Unit × Writer) :=
      congrFun same ⟨[], none⟩
    cases run
  | some text' => rw [put_injective ((writeDraft_eq_put said).symm.trans same)]

/-! ## Cuts -/

/-- However much a writer takes before it fails, `write` leaves the beginning of `text` in it and
tells of the failure; `draft` says the same of it. -/
structure CutAnywhere (write : Write Unit) (draft : Draft) (text : String) : Prop where
  said : text? draft = some text
  unlimited : write ⟨[], none⟩ = (.ok (), ⟨Utf8.encode text, none⟩)
  written : ∀ n, (write ⟨[], some n⟩).2.written =
    (Utf8.encode text).take (min n text.utf8ByteSize)
  failed : ∀ n, (write ⟨[], some n⟩).1 = .error .full ↔ n < text.utf8ByteSize
  succeeded : ∀ n, (write ⟨[], some n⟩).1 = .ok () ↔ text.utf8ByteSize ≤ n
  delivered : ∀ room, deliver room draft = Delivery.ofRun (write ⟨[], room⟩)

theorem cutAnywhere_writeDraft {draft : Draft} {text : String} (said : text? draft = some text) :
    CutAnywhere (writeDraft draft) draft text := by
  have same := writeDraft_eq_put said
  have size := Utf8.length_encode text
  have cut : ∀ n, (n < text.utf8ByteSize ∧
        put text ⟨[], some n⟩ = (.error .full, ⟨(Utf8.encode text).take n, none⟩)) ∨
      (text.utf8ByteSize ≤ n ∧
        put text ⟨[], some n⟩ = (.ok (), ⟨Utf8.encode text, some (n - text.utf8ByteSize)⟩)) := by
    intro n
    obtain short | enough := Nat.lt_or_ge n text.utf8ByteSize
    · exact .inl ⟨short, put_of_not_fits (by omega) []⟩
    · exact .inr ⟨enough, size ▸ put_of_fits (by omega) []⟩
  constructor
  case said => exact said
  case unlimited =>
    rw [same]
    rfl
  case delivered => exact deliver_eq_ofRun draft
  all_goals
    intro n
    rw [same]
    obtain ⟨short, run⟩ | ⟨enough, run⟩ := cut n
  case written.inl => rw [run, Nat.min_eq_left short.le]
  case written.inr => rw [run, Nat.min_eq_right enough, List.take_of_length_le (by omega)]
  case failed.inl => simp [run, short]
  case failed.inr => simp [run, enough]
  case succeeded.inl => simp [run, short]
  case succeeded.inr => simp [run, enough]

/-- **A writer that fails has taken a beginning of the text**, wherever it fails. -/
theorem cut_anywhere {library : Library} (narrow : library.Narrow) (baseName : String) :
    (∃ text, CutAnywhere (writeHeader library baseName) (header library baseName) text) ∧
      ∃ text, CutAnywhere (writeSource library baseName) (source library baseName) text := by
  obtain ⟨headerText, headerSaid⟩ := exists_text_header library baseName
  obtain ⟨sourceText, sourceSaid⟩ := exists_text_source narrow baseName
  rw [writeHeader_eq, writeSource_eq]
  exact ⟨⟨headerText, cutAnywhere_writeDraft headerSaid⟩,
    ⟨sourceText, cutAnywhere_writeDraft sourceSaid⟩⟩

/-- The eleventh byte of the source is the first of the two bytes of `é`. -/
theorem cut_anywhere_sample :
    Library.sample.Accepted ∧ Library.sample.Narrow ∧
      ∃ text, CutAnywhere (writeSource Library.sample "é") (source Library.sample "é") text ∧
        11 < text.utf8ByteSize ∧
        (writeSource Library.sample "é" ⟨[], some 11⟩).2.written =
          Utf8.encode "#include \"" ++ [0xc3] := by
  have narrow : Library.sample.Narrow := by decide
  obtain ⟨-, text, cut⟩ := cut_anywhere narrow "é"
  have line : lineBytes ("#include \"" ++ "é" ++ ".h\"") =
      Utf8.encode "#include \"" ++ [0xc3, 0xa9] ++ Utf8.encode ".h\"\n" := by cbv
  have cutAtEleven : deliver (some 11) (source Library.sample "é") =
      ⟨Utf8.encode "#include \"" ++ [0xc3], .full⟩ := by
    have first : source Library.sample "é" =
        some ("#include \"" ++ "é" ++ ".h\"") :: (source Library.sample "é").tail := rfl
    have short : 11 < (lineBytes ("#include \"" ++ "é" ++ ".h\"")).length := by
      rw [line]
      decide
    rw [first, deliver_of_not_fits short, line]
    rfl
  have run := cut.delivered (some 11)
  rw [cutAtEleven] at run
  have failed := (Delivery.ending_ofRun_eq_full_iff _).1 (congrArg Delivery.ending run).symm
  have written := (Delivery.written_ofRun _).symm.trans (congrArg Delivery.written run).symm
  exact ⟨Library.accepted_sample, narrow, text, cut, (cut.failed 11).1 failed, written⟩

end GlyphTables.Cpp
