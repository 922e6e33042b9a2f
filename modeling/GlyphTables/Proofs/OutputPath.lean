import Mathlib
import GlyphTables.Cpp.File
import GlyphTables.OutputPath

/-!
# The names of the generated files

A path with a file name falls into what stands before the name, the name, and a tail that says
nothing. The paths of the two files are made by cutting off the extension and writing another one,
the name by which the source includes the header by taking the stem.

* `parts_of_fileName?` : each path with a file name has its parts;
* `Parts.lastComponent`, `Parts.beforeLast` : they are what they are, however the path was made;
* `Parts.withoutExtension` : what is left without the extension;
* `output_names_iff` : the two routes agree on all names but those of the form `..a`.
-/

namespace GlyphTables.Path

/-! ## Tails that say nothing -/

/-- A tail, from its end: separators and single dots between separators. -/
inductive Idle : List UInt8 → Prop where
  | nil : Idle []
  | separator {tail : List UInt8} : Idle tail → Idle (separator :: tail)
  | dot {tail : List UInt8} : Idle tail → Idle (dot :: separator :: tail)

theorem dot_ne_separator : dot ≠ separator := by decide

theorem dropTail_separator (rest : List UInt8) : dropTail (separator :: rest) = dropTail rest := by
  rw [dropTail.eq_def]
  simp

theorem dropTail_dot_separator (rest : List UInt8) :
    dropTail (dot :: separator :: rest) = dropTail rest := by
  rw [dropTail.eq_def]
  simp [dot_ne_separator, dropTail_separator]

/-- What is idle at the end of a path is dropped whatever stands before it. -/
theorem Idle.dropTail_append {tail : List UInt8} (h : Idle tail) (rest : List UInt8) :
    dropTail (tail ++ rest) = dropTail rest := by
  induction h with
  | nil => rfl
  | separator _ ih => rw [List.cons_append, dropTail_separator, ih]
  | dot _ ih => rw [List.cons_append, List.cons_append, dropTail_dot_separator, ih]

theorem Idle.of_suffix {tail rest : List UInt8} (h : Idle tail) (suffix : rest <:+ tail) :
    Idle rest := by
  induction h with
  | nil =>
    rw [List.suffix_nil.1 suffix]
    exact .nil
  | separator idle ih =>
    obtain rfl | suffix := List.suffix_cons_iff.1 suffix
    · exact .separator idle
    · exact ih suffix
  | dot idle ih =>
    obtain rfl | suffix := List.suffix_cons_iff.1 suffix
    · exact .dot idle
    obtain rfl | suffix := List.suffix_cons_iff.1 suffix
    · exact .separator idle
    · exact ih suffix

/-- What `dropTail` drops says nothing. -/
theorem exists_idle : ∀ path : List UInt8, ∃ tail, Idle tail ∧ path = tail ++ dropTail path
  | [] => ⟨[], .nil, rfl⟩
  | byte :: rest => by
    by_cases hb : byte = separator
    · obtain ⟨tail, idle, split⟩ := exists_idle rest
      refine ⟨separator :: tail, .separator idle, ?_⟩
      rw [hb, dropTail_separator, List.cons_append, ← split]
    cases rest with
    | nil => exact ⟨[], .nil, by simp [dropTail, hb]⟩
    | cons next rest =>
      by_cases hn : byte = dot ∧ next = separator
      · obtain ⟨tail, idle, split⟩ := exists_idle rest
        refine ⟨dot :: separator :: tail, .dot idle, ?_⟩
        rw [hn.1, hn.2, dropTail_dot_separator, List.cons_append, List.cons_append, ← split]
      · exact ⟨[], .nil, by rw [dropTail.eq_def]; simp [hb, hn]⟩

/-! ## The parts of a path -/

/-- A path in three parts: what stands before the name, the name, and a tail that says nothing. -/
structure Parts (path front name tail : Path) : Prop where
  split : path = front ++ name ++ tail
  front : ∀ byte ∈ front.getLast?, byte = separator
  noSeparator : separator ∉ name
  nonempty : name ≠ []
  notDot : name ≠ [dot]
  idle : Idle tail.reverse

/-- A name says something at its end, so nothing is dropped of it. -/
theorem dropTail_name {name : List UInt8} (noSeparator : separator ∉ name) (nonempty : name ≠ [])
    (notDot : name ≠ [dot]) (rest : List UInt8) : dropTail (name ++ rest) = name ++ rest := by
  rw [dropTail.eq_def]
  cases name with
  | nil => exact absurd rfl nonempty
  | cons byte name =>
    obtain ⟨hb, noSeparator⟩ := not_or.1 (mt List.mem_cons.2 noSeparator)
    cases name with
    | nil =>
      have hd : byte ≠ dot := fun h => notDot (congrArg (· :: []) h)
      cases rest <;> simp [Ne.symm hb, hd]
    | cons next name =>
      obtain ⟨hn, -⟩ := not_or.1 (mt List.mem_cons.2 noSeparator)
      simp [Ne.symm hb, Ne.symm hn]

variable {path front name tail : Path}

theorem Parts.dropTail_reverse (h : Parts path front name tail) :
    dropTail path.reverse = name.reverse ++ front.reverse := by
  have nonempty : name.reverse ≠ [] := by simpa using h.nonempty
  have notDot : name.reverse ≠ [dot] := by simpa using h.notDot
  have noSeparator : separator ∉ name.reverse := by simpa using h.noSeparator
  rw [h.split, List.reverse_append, List.reverse_append, h.idle.dropTail_append,
    dropTail_name noSeparator nonempty notDot]

/-- Seen from behind, a name goes up to the separator before it. -/
theorem span_name (noSeparator : separator ∉ name)
    (front_last : ∀ byte ∈ front.getLast?, byte = separator) :
    (name.reverse ++ front.reverse).takeWhile (· != separator) = name.reverse ∧
      (name.reverse ++ front.reverse).dropWhile (· != separator) = front.reverse := by
  have inName : ∀ byte ∈ name.reverse, (byte != separator) = true := by
    intro byte mem
    rw [bne_iff_ne]
    rintro rfl
    exact noSeparator (List.mem_reverse.1 mem)
  rw [List.takeWhile_append_of_pos inName, List.dropWhile_append_of_pos inName]
  rw [← List.head?_reverse] at front_last
  cases hf : front.reverse with
  | nil => simp
  | cons byte rest =>
    have hb : byte = separator := front_last byte (by simp [hf])
    simp [hb]

theorem Parts.lastComponent (h : Parts path front name tail) : path.lastComponent = name := by
  rw [Path.lastComponent, h.dropTail_reverse, (span_name h.noSeparator h.front).1,
    List.reverse_reverse]

theorem Parts.beforeLast (h : Parts path front name tail) : path.beforeLast = front := by
  rw [Path.beforeLast, h.dropTail_reverse, (span_name h.noSeparator h.front).2,
    List.reverse_reverse]

/-- Every path is a front, a last component and an idle tail. -/
theorem exists_split (path : Path) :
    ∃ tail : Path, Idle tail.reverse ∧ path = path.beforeLast ++ path.lastComponent ++ tail := by
  obtain ⟨tail, idle, split⟩ := exists_idle path.reverse
  refine ⟨tail.reverse, by rwa [List.reverse_reverse], ?_⟩
  rw [← List.reverse_inj, split, Path.beforeLast, Path.lastComponent]
  simp [List.takeWhile_append_dropWhile]

theorem getLast?_beforeLast (path : Path) :
    ∀ byte ∈ path.beforeLast.getLast?, byte = separator := by
  intro byte last
  rw [Path.beforeLast, List.getLast?_reverse, Option.mem_def] at last
  have stop := List.head?_dropWhile_not (· != separator) (dropTail path.reverse)
  rw [last] at stop
  simpa using stop

theorem separator_notMem_lastComponent (path : Path) : separator ∉ path.lastComponent := by
  intro mem
  rw [Path.lastComponent, List.mem_reverse] at mem
  simpa using List.mem_takeWhile_imp mem

/-- The file name is the last component, unless that is no name of a file. -/
theorem fileName?_eq_some_iff :
    path.fileName? = some name ↔
      isNoName path.lastComponent = false ∧ path.lastComponent = name := by
  unfold fileName?
  cases isNoName path.lastComponent <;> simp

theorem parts_of_fileName? (h : path.fileName? = some name) :
    ∃ tail, Parts path path.beforeLast name tail := by
  obtain ⟨named, rfl⟩ := fileName?_eq_some_iff.1 h
  obtain ⟨tail, idle, split⟩ := exists_split path
  simp only [isNoName, Bool.or_eq_false_iff, beq_eq_false_iff_ne, ne_eq] at named
  exact ⟨tail, split, getLast?_beforeLast path, separator_notMem_lastComponent path, named.1.1,
    named.1.2, idle⟩

theorem Parts.fileName? (h : Parts path front name tail) :
    path.fileName? = if name = [dot, dot] then none else some name := by
  have noName : isNoName name = true ↔ name = [dot, dot] := by
    simp only [isNoName, Bool.or_eq_true, beq_iff_eq, h.nonempty, h.notDot, false_or]
  rw [Path.fileName?, h.lastComponent, if_congr noName rfl rfl]

theorem Parts.ne_parent (h : Parts path front name tail) (named : path.fileName? = some name) :
    name ≠ [dot, dot] := by
  rintro rfl
  simp [h.fileName?] at named

/-! ## Stems -/

/-- The last dot of a name splits it, unless the name starts with it. -/
theorem splitName_append {stem extension : Path} (nonempty : stem ≠ []) (noDot : dot ∉ extension) :
    splitName (stem ++ dot :: extension) = (stem, some extension) := by
  have inExtension : ∀ byte ∈ extension.reverse, (byte != dot) = true := by
    intro byte mem
    rw [bne_iff_ne]
    rintro rfl
    exact noDot (List.mem_reverse.1 mem)
  have reversed :
      (stem ++ dot :: extension).reverse = extension.reverse ++ dot :: stem.reverse := by simp
  rw [splitName, reversed, List.takeWhile_append_of_pos inExtension,
    List.dropWhile_append_of_pos inExtension]
  cases hs : stem.reverse with
  | nil => exact absurd (List.reverse_eq_nil_iff.1 hs) nonempty
  | cons last front =>
    have : stem = (last :: front).reverse := by rw [← hs, List.reverse_reverse]
    simp [this]

theorem splitName_cases (name : Path) :
    splitName name = (name, none) ∨
      ∃ stem extension, stem ≠ [] ∧ dot ∉ extension ∧ name = stem ++ dot :: extension := by
  have stop := List.head?_dropWhile_not (· != dot) name.reverse
  have whole := List.takeWhile_append_dropWhile (p := (· != dot)) (l := name.reverse)
  rw [splitName]
  cases hd : name.reverse.dropWhile (· != dot) with
  | nil => exact .inl rfl
  | cons byte rest =>
    cases rest with
    | nil => exact .inl rfl
    | cons last front =>
      right
      rw [hd] at stop whole
      have isDot : byte = dot := by simpa using stop
      refine ⟨(last :: front).reverse, (name.reverse.takeWhile (· != dot)).reverse, by simp, ?_, ?_⟩
      · intro mem
        simpa using List.mem_takeWhile_imp (List.mem_reverse.1 mem)
      · have flipped := congrArg List.reverse whole
        rw [List.reverse_reverse, isDot] at flipped
        exact flipped.symm.trans (by simp)

/-! ## Without the extension -/

/-- What a path keeps of its name without the extension. The stem `.` is lost where nothing follows
the name: `..` is left then, which means the directory above. -/
def keptName (stem tail : Path) : Path :=
  if stem = [dot] ∧ tail = [] then [dot, dot] else stem

theorem upToStem_of_fileName? (h : Parts path front name tail) (named : name ≠ [dot, dot]) :
    path.upToStem = front ++ (splitName name).1 := by
  have fileName : path.fileName? = some name := by rw [h.fileName?, if_neg named]
  simp only [upToStem, stem?, fileName, Option.map_some, h.beforeLast]

/-- As many bytes as the extension has go from the end, some of them perhaps from the tail. -/
theorem take_extension {stem extension : Path}
    (split : path = front ++ (stem ++ dot :: extension) ++ tail) :
    path.take (path.length - extension.length) =
      front ++ (stem ++ dot :: extension.take tail.length) ++
        tail.take (tail.length - extension.length) := by
  have regrouped : path = (front ++ stem ++ [dot]) ++ (extension ++ tail) := by
    simp [split]
  have length : path.length - extension.length =
      (front ++ stem ++ [dot]).length + tail.length := by
    rw [regrouped]
    simp only [List.length_append]
    omega
  rw [length, regrouped, List.take_length_add_append, List.take_append]
  simp

/-- The path that is left when the extension is cut off has the same front. -/
theorem Parts.take_extension {stem extension : Path}
    (h : Parts path front (stem ++ dot :: extension) tail) (nonempty : stem ≠ []) :
    Parts (path.take (path.length - extension.length)) front
      (stem ++ dot :: extension.take tail.length) (tail.take (tail.length - extension.length)) := by
  refine ⟨Path.take_extension h.split, h.front, fun mem => h.noSeparator ?_, by simp, ?_, ?_⟩
  · have sub : (stem ++ dot :: extension.take tail.length).Sublist (stem ++ dot :: extension) :=
      ((List.take_sublist _ _).cons_cons dot).append_left stem
    exact sub.subset mem
  · intro single
    have length := congrArg List.length single
    have := List.length_pos_iff.2 nonempty
    simp only [List.length_append, List.length_cons, List.length_nil] at length
    omega
  · exact h.idle.of_suffix (List.reverse_suffix.2 <| List.take_prefix _ _)

theorem append_dot_eq_iff {stem rest : Path} (nonempty : stem ≠ []) :
    stem ++ dot :: rest = [dot, dot] ↔ stem = [dot] ∧ rest = [] := by
  constructor
  · intro same
    cases stem with
    | nil => exact absurd rfl nonempty
    | cons first stem => cases stem <;> simp_all
  · rintro ⟨rfl, rfl⟩
    rfl

/-- Taking away the extension keeps the front and the stem, and of the tail what makes the stem a
name. -/
theorem Parts.withoutExtension (h : Parts path front name tail) (named : name ≠ [dot, dot]) :
    path.withoutExtension = front ++ keptName (splitName name).1 tail := by
  have fileName : path.fileName? = some name := by rw [h.fileName?, if_neg named]
  obtain plain | ⟨stem, extension, nonempty, noDot, rfl⟩ := splitName_cases name
  · have whole := upToStem_of_fileName? h named
    rw [plain] at whole ⊢
    simp [Path.withoutExtension, extension?, fileName, plain, whole, keptName, h.notDot]
  have extended : path.extension? = some extension := by
    simp [extension?, fileName, splitName_append nonempty noDot]
  have left := h.take_extension nonempty
  rw [Path.withoutExtension, extended, Option.getD_some, splitName_append nonempty noDot]
  by_cases lost : stem = [dot] ∧ extension.take tail.length = []
  · -- nothing follows the name, so its extension goes and `..` is left
    obtain ⟨rfl, short⟩ := lost
    have extensionNonempty : extension ≠ [] := by
      rintro rfl
      exact named rfl
    obtain rfl : tail = [] := by
      simpa [extensionNonempty] using short
    have nameless : stem? (path.take (path.length - extension.length)) = none := by
      simp [stem?, left.fileName?]
    rw [upToStem, nameless, left.split, keptName, if_pos ⟨rfl, rfl⟩]
    simp
  · -- bytes of the tail go instead, or the stem is longer: its dot is still there
    have noDot' : dot ∉ extension.take tail.length := fun mem => noDot (List.mem_of_mem_take mem)
    have kept : keptName stem tail = stem := by
      refine if_neg ?_
      rintro ⟨rfl, rfl⟩
      exact lost (by simp)
    rw [upToStem_of_fileName? left (mt (append_dot_eq_iff nonempty).1 lost),
      splitName_append nonempty noDot', kept]

theorem fst_splitName_isPrefix (name : Path) : (splitName name).1 <+: name := by
  obtain plain | ⟨stem, extension, nonempty, noDot, rfl⟩ := splitName_cases name
  · rw [plain]
  · rw [splitName_append nonempty noDot]
    exact List.prefix_append _ _

theorem splitName_fst_ne_nil {name : Path} (nonempty : name ≠ []) : (splitName name).1 ≠ [] := by
  obtain plain | ⟨stem, extension, stemNonempty, noDot, rfl⟩ := splitName_cases name
  · rwa [plain]
  · rwa [splitName_append stemNonempty noDot]

/-! ## The two files -/

/-- A path that ends in a name with the stem `.`, as `..a`. -/
def LosesStem (path : Path) : Prop :=
  path.stem? = some [dot] ∧ path = path.beforeLast ++ path.lastComponent

instance (path : Path) : Decidable (LosesStem path) :=
  inferInstanceAs (Decidable (_ ∧ _))

/-- A name stays where it is when something is written behind it. -/
theorem Parts.of_append {suffix : Path} (front_last : ∀ byte ∈ front.getLast?, byte = separator)
    (noSeparator : separator ∉ name) (nonempty : name ≠ [])
    (suffix_noSeparator : separator ∉ suffix) (suffix_nonempty : suffix ≠ []) :
    Parts (front ++ name ++ suffix) front (name ++ suffix) [] := by
  refine ⟨by simp, front_last, ?_, by simp [nonempty], ?_, .nil⟩
  · simp [noSeparator, suffix_noSeparator]
  · intro single
    have := congrArg List.length single
    have := List.length_pos_iff.2 nonempty
    have := List.length_pos_iff.2 suffix_nonempty
    simp at *
    omega

theorem separator_notMem_keptName {stem : Path} (noSeparator : separator ∉ stem) (tail : Path) :
    separator ∉ keptName stem tail := by
  unfold keptName
  split
  · decide
  · exact noSeparator

theorem keptName_ne_nil {stem : Path} (nonempty : stem ≠ []) (tail : Path) :
    keptName stem tail ≠ [] := by
  unfold keptName
  split
  · decide
  · exact nonempty

theorem Parts.separator_notMem_stem (h : Parts path front name tail) :
    separator ∉ (splitName name).1 :=
  fun mem => h.noSeparator ((fst_splitName_isPrefix name).subset mem)

/-- A path gets its new ending at its last name. -/
theorem Parts.extended (h : Parts path front name tail) (named : name ≠ [dot, dot]) {suffix : Path}
    (noSeparator : separator ∉ suffix) (nonempty : suffix ≠ []) :
    Parts (path.withoutExtension ++ suffix) front
      (keptName (splitName name).1 tail ++ suffix) [] := by
  rw [h.withoutExtension named]
  exact .of_append h.front (separator_notMem_keptName h.separator_notMem_stem tail)
    (keptName_ne_nil (splitName_fst_ne_nil h.nonempty) tail) noSeparator nonempty

/-- Only the stem `.` is lost, and only where no tail follows it. -/
theorem Parts.losesStem_iff (h : Parts path front name tail) (named : name ≠ [dot, dot]) :
    LosesStem path ↔ (splitName name).1 = [dot] ∧ tail = [] := by
  have ends : path = front ++ name ↔ tail = [] := by
    rw [h.split, List.append_right_eq_self]
  have fileName : path.fileName? = some name := by rw [h.fileName?, if_neg named]
  simp only [LosesStem, stem?, fileName, Option.map_some, Option.some.injEq, h.beforeLast,
    h.lastComponent, ends]

theorem baseName?_eq_some_iff {base : String} :
    path.baseName? = some base ↔ path.stem? = some (Utf8.encode base) := by
  rw [baseName?, Option.bind_eq_some_iff]
  simp only [Utf8.decode?_eq_some_iff]
  constructor
  · rintro ⟨stem, found, rfl⟩
    exact found
  · exact fun found => ⟨_, found, rfl⟩

/-- A path with a stem has its parts. -/
theorem parts_of_baseName? {base : String} (h : path.baseName? = some base) :
    ∃ name tail, Parts path path.beforeLast name tail ∧ name ≠ [dot, dot] ∧
      (splitName name).1 = Utf8.encode base := by
  rw [baseName?_eq_some_iff, stem?, Option.map_eq_some_iff] at h
  obtain ⟨name, fileName, stem⟩ := h
  obtain ⟨tail, parts⟩ := parts_of_fileName? fileName
  exact ⟨name, tail, parts, parts.ne_parent fileName, stem⟩

/-- The name of a generated file is the stem and its ending, unless the stem is lost. -/
theorem lastComponent_extended_iff {base : String} (h : path.baseName? = some base)
    {ending : String} (noSeparator : separator ∉ Utf8.encode ending)
    (nonempty : Utf8.encode ending ≠ []) :
    lastComponent (path.withoutExtension ++ Utf8.encode ending) = Utf8.encode (base ++ ending) ↔
      ¬ LosesStem path := by
  obtain ⟨name, tail, parts, named, stem⟩ := parts_of_baseName? h
  rw [(parts.extended named noSeparator nonempty).lastComponent, parts.losesStem_iff named, stem,
    Utf8.encode_append, List.append_left_inj, keptName]
  split
  · rename_i lost
    simp [lost]
  · rename_i kept
    simp [kept]

theorem beforeLast_extended {base : String} (h : path.baseName? = some base)
    {ending : String} (noSeparator : separator ∉ Utf8.encode ending)
    (nonempty : Utf8.encode ending ≠ []) :
    beforeLast (path.withoutExtension ++ Utf8.encode ending) = path.beforeLast := by
  obtain ⟨name, tail, parts, named, -⟩ := parts_of_baseName? h
  exact (parts.extended named noSeparator nonempty).beforeLast

/-- **The header has the name that the source includes, unless its stem is lost.** -/
theorem output_names_iff {base : String} (h : path.baseName? = some base) :
    let outputs := OutputPaths.ofPath path
    (∀ library, (Cpp.source library base).head? = some (some ("#include \"" ++ base ++ ".h\""))) ∧
      (lastComponent outputs.header = Utf8.encode (base ++ ".h") ↔ ¬ LosesStem path) ∧
      (lastComponent outputs.source = Utf8.encode (base ++ ".cc") ↔ ¬ LosesStem path) ∧
      beforeLast outputs.header = path.beforeLast ∧
      beforeLast outputs.source = path.beforeLast := by
  have h1 : separator ∉ Utf8.encode ".h" ∧ Utf8.encode ".h" ≠ [] := by decide
  have h2 : separator ∉ Utf8.encode ".cc" ∧ Utf8.encode ".cc" ≠ [] := by decide
  exact ⟨fun _ => rfl,
    lastComponent_extended_iff h h1.1 h1.2, lastComponent_extended_iff h h2.1 h2.2,
    beforeLast_extended h h1.1 h1.2, beforeLast_extended h h2.1 h2.2⟩

/-- A stem that is kept: behind `..x` stands a separator. -/
theorem output_names_iff_kept :
    baseName? (Utf8.encode "d/..x/") = some "." ∧
      lastComponent (OutputPaths.ofPath (Utf8.encode "d/..x/")).header = Utf8.encode "..h" := by
  have base : baseName? (Utf8.encode "d/..x/") = some "." :=
    baseName?_eq_some_iff.2 (by decide)
  exact ⟨base, (output_names_iff base).2.1.2 (by decide)⟩

/-- A stem that is lost: the source includes `..h`, but the header is `...h`. -/
theorem header_name_ne_included :
    baseName? (Utf8.encode "..a") = some "." ∧
      (∀ library, (Cpp.source library ".").head? = some (some "#include \"..h\"")) ∧
      lastComponent (OutputPaths.ofPath (Utf8.encode "..a")).header = Utf8.encode "...h" ∧
      lastComponent (OutputPaths.ofPath (Utf8.encode "..a")).header ≠ Utf8.encode ("." ++ ".h") :=
  ⟨baseName?_eq_some_iff.2 (by decide), fun _ => rfl, by decide, by decide⟩

end GlyphTables.Path
