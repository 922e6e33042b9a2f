import GlyphTables.Proofs.OutputPath

/-!
# Deriving the output paths again

The paths of the generated files are themselves paths from which files can be derived. A generated
name consists of a stem that is kept and of an extension that goes, so the same files come out, but
for one stem: `..h` without its extension is `..`, which names no file.

* `Parts.ofPath` : the two files of a path, by what stands before them and their stem;
* `ofPath_extended` : the two files of a path that has a stem and an extension;
* `ofPath_ofPath_iff` : which files are derived from those that were derived.
-/

namespace GlyphTables.Path

variable {path front name stem tail : Path}

/-- The two files that have the stem `stem` and stand behind `front`. -/
def filesNamed (front stem : Path) : OutputPaths where
  header := front ++ stem ++ Utf8.encode ".h"
  source := front ++ stem ++ Utf8.encode ".cc"

theorem filesNamed_inj {stem' : Path} :
    filesNamed front stem = filesNamed front stem' ↔ stem = stem' := by
  constructor
  · intro same
    have headers := congrArg OutputPaths.header same
    exact List.append_cancel_left (List.append_cancel_right headers)
  · rintro rfl
    rfl

/-! ## The stem that is left -/

theorem keptName_nil (stem : Path) :
    keptName stem [] = if stem = [dot] then [dot, dot] else stem := by
  simp [keptName]

/-- A kept name is `.` where a tail held it in place. -/
theorem keptName_eq_dot_iff : keptName stem tail = [dot] ↔ stem = [dot] ∧ tail ≠ [] := by
  unfold keptName
  split
  · rename_i lost
    simp [lost]
  · rename_i kept
    constructor
    · rintro rfl
      exact ⟨rfl, fun nothing => kept ⟨rfl, nothing⟩⟩
    · exact fun dotted => dotted.1

theorem keptName_nil_eq_iff : keptName stem [] = stem ↔ stem ≠ [dot] := by
  rw [keptName_nil]
  split
  · rename_i dotted
    simp [dotted]
  · rename_i other
    simp [other]

/-- A stem that has been cut once is not cut any further. -/
theorem keptName_keptName_nil (stem : Path) :
    keptName (keptName stem []) [] = keptName stem [] := by
  rw [keptName_nil_eq_iff, ne_eq, keptName_eq_dot_iff]
  simp

/-! ## Deriving -/

theorem Parts.ofPath (h : Parts path front name tail) (named : name ≠ [dot, dot]) :
    OutputPaths.ofPath path = filesNamed front (keptName (splitName name).1 tail) := by
  rw [OutputPaths.ofPath, h.withoutExtension named, filesNamed]

/-- A path with an extension that says something keeps its stem, but for the stem `.`. -/
theorem ofPath_extended (front_last : ∀ byte ∈ front.getLast?, byte = separator)
    (stem_noSeparator : separator ∉ stem) (stem_nonempty : stem ≠ []) (extension : Path)
    (plain : separator ∉ extension ∧ dot ∉ extension) (nonempty : extension ≠ []) :
    OutputPaths.ofPath (front ++ stem ++ dot :: extension) =
      filesNamed front (keptName stem []) := by
  have suffix_noSeparator : separator ∉ dot :: extension := by
    simp [plain.1, dot_ne_separator.symm]
  have parts : Parts (front ++ stem ++ dot :: extension) front (stem ++ dot :: extension) [] :=
    .of_append front_last stem_noSeparator stem_nonempty suffix_noSeparator (List.cons_ne_nil _ _)
  have named : stem ++ dot :: extension ≠ [dot, dot] := by
    rw [ne_eq, append_dot_eq_iff stem_nonempty]
    exact fun twoDots => nonempty twoDots.2
  rw [parts.ofPath named, splitName_append stem_nonempty plain.2]

/-- Either of two files with the same stem leads back to both of them, but for the stem `.`. -/
theorem ofPath_filesNamed (front_last : ∀ byte ∈ front.getLast?, byte = separator)
    (noSeparator : separator ∉ stem) (nonempty : stem ≠ []) :
    OutputPaths.ofPath (filesNamed front stem).header = filesNamed front (keptName stem []) ∧
      OutputPaths.ofPath (filesNamed front stem).source = filesNamed front (keptName stem []) :=
  ⟨ofPath_extended front_last noSeparator nonempty (Utf8.encode "h") (by decide) (by decide),
    ofPath_extended front_last noSeparator nonempty (Utf8.encode "cc") (by decide) (by decide)⟩

/-! ## Deriving again -/

/-- A path that ends in a name with the stem `.` and a tail, as `..c/`: the stem is not lost. -/
def KeepsDot (path : Path) : Prop :=
  path.stem? = some [dot] ∧ ¬ LosesStem path

instance (path : Path) : Decidable (KeepsDot path) :=
  inferInstanceAs (Decidable (_ ∧ _))

theorem Parts.keepsDot_iff (h : Parts path front name tail) (named : name ≠ [dot, dot]) :
    KeepsDot path ↔ keptName (splitName name).1 tail = [dot] := by
  have fileName : path.fileName? = some name := by rw [h.fileName?, if_neg named]
  rw [KeepsDot, h.losesStem_iff named, keptName_eq_dot_iff, stem?, fileName, Option.map_some,
    Option.some.injEq]
  tauto

/-- **Deriving the paths again gives the same paths, unless their stem is `.`** -/
theorem ofPath_ofPath_iff (h : path.fileName? = some name) :
    let outputs := OutputPaths.ofPath path
    (OutputPaths.ofPath outputs.header = outputs ↔ ¬ KeepsDot path) ∧
      (OutputPaths.ofPath outputs.source = outputs ↔ ¬ KeepsDot path) ∧
      (KeepsDot path → outputs = filesNamed path.beforeLast [dot] ∧
        OutputPaths.ofPath outputs.header = filesNamed path.beforeLast [dot, dot]) ∧
      OutputPaths.ofPath outputs.source = OutputPaths.ofPath outputs.header ∧
      let again := OutputPaths.ofPath outputs.header
      OutputPaths.ofPath again.header = again ∧ OutputPaths.ofPath again.source = again := by
  obtain ⟨tail, parts⟩ := parts_of_fileName? h
  have named := parts.ne_parent h
  have noSeparator := separator_notMem_keptName parts.separator_notMem_stem tail
  have nonempty := keptName_ne_nil (splitName_fst_ne_nil parts.nonempty) tail
  rw [parts.ofPath named, parts.keepsDot_iff named]
  generalize keptName (splitName name).1 tail = kept at noSeparator nonempty
  obtain ⟨header, source⟩ := ofPath_filesNamed parts.front noSeparator nonempty
  obtain ⟨header', source'⟩ := ofPath_filesNamed parts.front
    (separator_notMem_keptName noSeparator []) (keptName_ne_nil nonempty [])
  simp only [header, source, header', source', filesNamed_inj, keptName_nil_eq_iff,
    keptName_keptName_nil, true_and, and_true, ne_eq]
  rintro rfl
  exact ⟨rfl, rfl⟩

/-- A stem that is lost at once: `..a` has the files of `...`, and so have they. -/
theorem ofPath_ofPath_iff_lost :
    fileName? (Utf8.encode "..a") = some (Utf8.encode "..a") ∧
      OutputPaths.ofPath (Utf8.encode "..a") = ⟨Utf8.encode "...h", Utf8.encode "...cc"⟩ ∧
      OutputPaths.ofPath (Utf8.encode "...h") = ⟨Utf8.encode "...h", Utf8.encode "...cc"⟩ ∧
      OutputPaths.ofPath (Utf8.encode "...cc") = ⟨Utf8.encode "...h", Utf8.encode "...cc"⟩ := by
  have fileName : fileName? (Utf8.encode "..a") = some (Utf8.encode "..a") := by decide
  have outputs : OutputPaths.ofPath (Utf8.encode "..a") =
      ⟨Utf8.encode "...h", Utf8.encode "...cc"⟩ := by decide
  obtain ⟨header, source, -⟩ := ofPath_ofPath_iff fileName
  have lost : ¬ KeepsDot (Utf8.encode "..a") := by decide
  rw [outputs] at header source
  exact ⟨fileName, outputs, header.2 lost, source.2 lost⟩

/-- A stem that is lost later: `..c/` has the files `..h` and `..cc`, but `..h` has others. -/
theorem ofPath_ofPath_ne :
    fileName? (Utf8.encode "..c/") = some (Utf8.encode "..c") ∧
      OutputPaths.ofPath (Utf8.encode "..c/") = ⟨Utf8.encode "..h", Utf8.encode "..cc"⟩ ∧
      OutputPaths.ofPath (Utf8.encode "..h") = ⟨Utf8.encode "...h", Utf8.encode "...cc"⟩ ∧
      OutputPaths.ofPath (OutputPaths.ofPath (Utf8.encode "..c/")).header ≠
        OutputPaths.ofPath (Utf8.encode "..c/") := by
  decide

end GlyphTables.Path
