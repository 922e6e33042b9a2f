import GlyphTables.Proofs.Cpp.Code
import GlyphTables.Proofs.Identifier
import GlyphTables.Proofs.Literal
import GlyphTables.Proofs.Lists

/-!
# Reading the generated code

A reader of the generated code has nothing but its text. What a line is about is told by its first
words. A line about an array is then read from its end, since the type of the elements may be any
text: the initializer stands after the last opening brace, the number of elements after the last
opening bracket, and the name before it.

* `afterLast?_append` : what follows the last place of a mark;
* `cutAtCommas_intercalate` : cutting undoes joining, where no piece has a comma;
* `numbers?_of_initializer?` : an initializer holds the numbers of the definition;
* `declarator?_toList` : type, name and bound of an array stand in its line;
* `read_of_text?` : so a line reads as what it stands for, if its names and bounds are words.
-/

namespace GlyphTables.Cpp

/-! ## Finding the last mark -/

/-- What stands after the last place where `mark` stands. -/
def afterLast? (mark : List Char) : List Char → Option (List Char)
  | [] => none
  | c :: rest =>
    match afterLast? mark rest with
    | some found => some found
    | none => if mark <+: c :: rest then some ((c :: rest).drop mark.length) else none

section Mark

variable {m : Char} {mark : List Char}

theorem afterLast?_eq_none {text : List Char} (absent : m ∉ text) :
    afterLast? (m :: mark) text = none := by
  induction text with
  | nil => rfl
  | cons c rest ih =>
    simp only [List.mem_cons, not_or] at absent
    simp [afterLast?, ih absent.2, absent.1]

theorem afterLast?_append (front : List Char) {text : List Char} (absent : m ∉ mark ++ text) :
    afterLast? (m :: mark) (front ++ (m :: mark ++ text)) = some text := by
  induction front with
  | nil =>
    rw [List.nil_append, List.cons_append, afterLast?, afterLast?_eq_none absent]
    simp
  | cons c front ih => rw [List.cons_append, afterLast?, ih]

/-- The two sides of the last place where `m` stands. -/
def splitLast? (m : Char) (text : List Char) : Option (List Char × List Char) :=
  (afterLast? [m] text).map fun back => (text.take (text.length - (back.length + 1)), back)

theorem splitLast?_append (front : List Char) {back : List Char} (absent : m ∉ back) :
    splitLast? m (front ++ m :: back) = some (front, back) := by
  have found : afterLast? [m] (front ++ m :: back) = some back := afterLast?_append front absent
  have length : (front ++ m :: back).length - (back.length + 1) = front.length := by
    rw [List.length_append, List.length_cons]
    omega
  rw [splitLast?, found, Option.map_some, length, List.take_left]

/-- What stands after a mark ends as the whole text does. -/
theorem suffix_of_afterLast? {text found : List Char} (h : afterLast? mark text = some found) :
    found <:+ text := by
  induction text with
  | nil => cases h
  | cons c rest ih =>
    rw [afterLast?] at h
    cases later : afterLast? mark rest with
    | some found' =>
      simp only [later, Option.some_inj] at h
      exact (ih (later.trans (congrArg some h))).trans (List.suffix_cons c rest)
    | none =>
      simp only [later] at h
      split at h
      · rw [← Option.some.inj h]
        exact List.drop_suffix _ _
      · cases h

end Mark

/-! ## Cutting a list of numbers -/

/-- The pieces of a text between the places where a comma and a blank stand. -/
def cutAtCommas : List Char → List (List Char)
  | [] => [[]]
  | ',' :: ' ' :: rest => [] :: cutAtCommas rest
  | c :: rest => (cutAtCommas rest).modifyHead (c :: ·)

theorem cutAtCommas_append {piece : List Char} (clean : ',' ∉ piece) (rest : List Char) :
    cutAtCommas (piece ++ rest) = (cutAtCommas rest).modifyHead (piece ++ ·) := by
  induction piece with
  | nil =>
    have same : (fun piece : List Char => [] ++ piece) = id := funext List.nil_append
    rw [List.nil_append, same, List.modifyHead_id]
    rfl
  | cons c piece ih =>
    simp only [List.mem_cons, not_or] at clean
    rw [List.cons_append, cutAtCommas.eq_3, ih clean.2, List.modifyHead_modifyHead]
    · rfl
    · rintro _ rfl
      exact absurd rfl clean.1

/-- Pieces without commas are found again between the commas. -/
theorem cutAtCommas_intercalate {pieces : List (List Char)} (filled : pieces ≠ [])
    (clean : ∀ piece ∈ pieces, ',' ∉ piece) :
    cutAtCommas ([',', ' '].intercalate pieces) = pieces := by
  induction pieces with
  | nil => exact absurd rfl filled
  | cons piece rest ih =>
    obtain ⟨first, others⟩ := List.forall_mem_cons.1 clean
    cases rest with
    | nil =>
      have cut := cutAtCommas_append first []
      simpa [cutAtCommas] using cut
    | cons second rest =>
      rw [List.intercalate_cons_cons, List.append_assoc, cutAtCommas_append first]
      -- what follows the first piece starts with a comma and a blank
      change List.modifyHead _ ([] :: cutAtCommas ([',', ' '].intercalate (second :: rest))) = _
      rw [ih (List.cons_ne_nil _ _) others]
      simp

/-! ## The parts of a line -/

/-- The text after the last opening brace and a blank, up to the closing brace at the end. -/
def initializerText? (line : String) : Option (List Char) := do
  let found ← afterLast? ['\x7b', ' '] line.toList
  if [' ', '\x7d', ';'] <:+ found then some (found.take (found.length - 3)) else none

/-- The numbers of an initializer. -/
def numbers? (initializer : List Char) : Option (List Int) :=
  (cutAtCommas initializer).mapM Literal.value?

/-- The decimal number in the last brackets. -/
def bound? (line : String) : Option Nat := do
  let found ← afterLast? ['['] line.toList
  if ']' ∈ found then Literal.natural? 10 (found.takeWhile (· ≠ ']')) else none

/-- The last brace of a line opens its initializer, whatever the element type holds. -/
theorem initializerText?_of_toList {line : String} {front initializer : List Char}
    (shape : line.toList = front ++ '\x7b' :: ' ' :: (initializer ++ [' ', '\x7d', ';']))
    (brace : '\x7b' ∉ initializer) : initializerText? line = some initializer := by
  have absent : '\x7b' ∉ [' '] ++ (initializer ++ [' ', '\x7d', ';']) := by
    simp [brace]
  have found := afterLast?_append front absent
  rw [show front ++ ('\x7b' :: [' '] ++ (initializer ++ [' ', '\x7d', ';'])) = line.toList by
    simp [shape]] at found
  simp [initializerText?, found]

/-- A line without a closing brace before its last character has no initializer. -/
theorem initializerText?_eq_none {line : String} {front : List Char} {c last : Char}
    (shape : line.toList = front ++ [c, last]) (other : c ≠ '\x7d') :
    initializerText? line = none := by
  rw [initializerText?]
  cases found : afterLast? ['\x7b', ' '] line.toList with
  | none => rfl
  | some back =>
    have ends : ¬ [' ', '\x7d', ';'] <:+ back := by
      intro ends
      obtain ⟨front', same⟩ := ends.trans (suffix_of_afterLast? found)
      rw [shape, List.append_cons front'] at same
      have tails : ['\x7d', ';'] = [c, last] := (List.append_inj' same rfl).2
      exact other (List.cons.inj tails).1.symm
    simp [ends]

/-! ## Initializers -/

section Initializer

variable {d : Definition} {initializer : String}

theorem exists_literals (written : d.initializer? = some initializer) :
    ∃ literals : List String, initializer = ", ".intercalate literals ∧
      List.Forall₂ (fun value literal => d.style.render? value = some literal) d.values literals ∧
      ∀ literal ∈ literals, ∀ c ∈ literal.toList, Literal.isLiteralChar c = true := by
  obtain ⟨literals, each, rfl⟩ := Option.map_eq_some_iff.1 written
  rw [mapM_eq_some_iff_forall₂] at each
  refine ⟨literals, rfl, each, ?_⟩
  refine forall_mem_of_forall₂ (P := fun _ => True) ?_ each fun _ _ => trivial
  exact fun _ _ rendered _ _ mem => Literal.isLiteralChar_of_mem_render? rendered mem

/-- An initializer consists of the characters of literals and of what stands between them. -/
theorem isLiteralChar_of_mem_initializer (written : d.initializer? = some initializer) {c : Char}
    (mem : c ∈ initializer.toList) : c ∈ [',', ' '] ∨ Literal.isLiteralChar c = true := by
  obtain ⟨literals, rfl, -, clean⟩ := exists_literals written
  rw [String.toList_intercalate] at mem
  obtain gap | ⟨_, inLiteral, mem⟩ := mem_intercalate mem
  · exact .inl gap
  · obtain ⟨literal, literalMem, rfl⟩ := List.mem_map.1 inLiteral
    exact .inr (clean literal literalMem c mem)

/-- The values are read back from their initializer. -/
theorem numbers?_of_initializer? (filled : d.values ≠ [])
    (written : d.initializer? = some initializer) :
    numbers? initializer.toList = some d.values := by
  obtain ⟨literals, rfl, each, clean⟩ := exists_literals written
  have pieces : literals.map String.toList ≠ [] := by
    have length := each.length_eq
    have positive := List.length_pos_of_ne_nil filled
    rw [ne_eq, List.map_eq_nil_iff, ← List.length_eq_zero_iff]
    omega
  have commas : ∀ piece ∈ literals.map String.toList, ',' ∉ piece := by
    rw [List.forall_mem_map]
    intro literal mem comma
    exact absurd (clean literal mem _ comma) (by decide)
  have read : List.Forall₂ (fun literal value => Literal.value? literal.toList = some value)
      literals d.values :=
    List.Forall₂.flip (each.imp fun _ _ rendered => Literal.value?_of_render? rendered)
  have gap : ", ".toList = [',', ' '] := rfl
  rw [numbers?, String.toList_intercalate, gap, cutAtCommas_intercalate pieces commas,
    mapM_eq_some_iff_forall₂, List.forall₂_map_left_iff]
  exact read

example : numbers? "-0x8000, 7".toList = some [-32768, 7] := by decide

end Initializer

/-! ## Arrays -/

/-- A text without any mark: its characters can all stand in an identifier. -/
def IsWord (text : String) : Prop :=
  ∀ c ∈ text.toList, isIdentifierTail c = true

theorem IsWord.notMem {text : String} (h : IsWord text) {c : Char}
    (mark : isIdentifierTail c = false) : c ∉ text.toList := by
  intro mem
  rw [h c mem] at mark
  cases mark

theorem isWord_of_isIdentifier {name : String} (h : isIdentifier name = true) : IsWord name :=
  fun _ mem => isIdentifierTail_of_mem h mem

theorem isWord_natural (n : Nat) : IsWord (Literal.natural n) := by
  intro c mem
  rw [Literal.natural, String.toList_ofList] at mem
  have digit : c.isDigit = true := Nat.isDigit_of_mem_toDigits (by decide) (by decide) mem
  simp [isIdentifierTail, Char.isAlphanum, digit]

/-- The name and the bound of an array are words; nothing is asked of its type. -/
structure Declarator.Worded (d : Declarator) : Prop where
  name : IsWord d.name
  bound : IsWord d.bound

/-- Type, name and bound of an array, found from the last opening bracket. -/
def declarator? (text : List Char) : Option Declarator := do
  let (front, back) ← splitLast? '[' text
  let (elementType, name) ← splitLast? ' ' front
  return ⟨String.ofList elementType, String.ofList name, String.ofList (back.takeWhile (· ≠ ']'))⟩

/-- Type, name and bound are found again, even where the type itself holds brackets or blanks. -/
theorem declarator?_toList {d : Declarator} (h : d.Worded) {rest : List Char}
    (absent : '[' ∉ rest) :
    declarator? (d.elementType.toList ++ ' ' :: (d.name.toList ++ '[' ::
      (d.bound.toList ++ ']' :: rest))) = some d := by
  have opening : '[' ∉ d.bound.toList ++ ']' :: rest := by
    simp [h.bound.notMem (c := '[') rfl, absent]
  have blank : ' ' ∉ d.name.toList := h.name.notMem rfl
  have bound := takeWhile_ne_append (h.bound.notMem (c := ']') rfl) rest
  have atBracket := splitLast?_append (d.elementType.toList ++ ' ' :: d.name.toList) opening
  rw [List.append_assoc, List.cons_append] at atBracket
  have atBlank := splitLast?_append d.elementType.toList blank
  simp only [declarator?, atBracket, atBlank, bound, Option.bind_eq_bind, Option.bind_some,
    Option.pure_def, String.ofList_toList]

/-! ## Lines -/

/-- Where an array can be used. -/
inductive Linkage where
  /-- It is defined elsewhere. -/
  | declared
  /-- It is defined here, for all files. -/
  | exported
  /-- It is defined here, for this file only. -/
  | hidden
  deriving DecidableEq

/-- The linkage of a definition, which is `static` or not. -/
def Linkage.ofStatic (isStatic : Bool) : Linkage :=
  if isStatic then hidden else exported

/-- The first words of a line about an array. -/
def Linkage.words : Linkage → String
  | declared => "extern const "
  | exported => "const "
  | hidden => "static const "

/-- What a line says, as far as its own text tells. -/
inductive Reading where
  | nothing
  | enumeration (name : String)
  /-- An enumerator or an element, as the lines above have it. -/
  | item (name : String)
  | closing
  | array (linkage : Linkage) (d : Declarator) (values? : Option (List Int))
  deriving DecidableEq

/-- The array that a line says this linkage of. -/
def Reading.array? (linkage : Linkage) : Reading → Option Declarator
  | array linkage' d _ => if linkage' = linkage then some d else none
  | _ => none

/-- The identifier at the beginning of a text. -/
def word (text : List Char) : String :=
  String.ofList (text.takeWhile isIdentifierTail)

/-- A line that is set in is a comment or holds one name. -/
def readIndented (rest : List Char) : Reading :=
  if rest.head? = some '/' then .nothing else .item (word rest)

/-- The array that the rest of a line is about; `values?` are the numbers at the end of the line. -/
def readArray (linkage : Linkage) (values? : Option (List Int)) (rest : List Char) : Reading :=
  match declarator? rest with
  | none => .nothing
  | some d => .array linkage d values?

/-- The ways in which a line can begin, with the reading of what follows. None of them is the
beginning of another one. -/
def beginnings (values? : Option (List Int)) : List (String × (List Char → Reading)) :=
  [("  ", readIndented), ("enum ", fun rest => .enumeration (word rest)),
    ("\x7d;", fun _ => .closing)] ++
  [.declared, .exported, .hidden].map fun linkage => (linkage.words, readArray linkage values?)

/-- What is read off the text of a line. -/
def read (line : String) : Reading :=
  let values? := (initializerText? line).bind numbers?
  let found := (beginnings values?).findSome? fun (start, readRest) =>
    (start.toList.isPrefixOf? line.toList).map readRest
  found.getD .nothing

theorem read_indented (rest : String) : read ("  " ++ rest) = readIndented rest.toList := by
  simp [read, beginnings, Linkage.words, List.isPrefixOf?]

theorem read_enumeration (rest : String) :
    read ("enum " ++ rest) = .enumeration (word rest.toList) := by
  simp [read, beginnings, Linkage.words, List.isPrefixOf?]

theorem read_closing (rest : String) : read ("\x7d;" ++ rest) = .closing := by
  simp [read, beginnings, Linkage.words, List.isPrefixOf?]

theorem read_array {linkage : Linkage} {line : String} {rest : List Char}
    (shape : line.toList = linkage.words.toList ++ rest) :
    read line = readArray linkage ((initializerText? line).bind numbers?) rest := by
  cases linkage <;> simp [read, shape, beginnings, Linkage.words, List.isPrefixOf?]

/-! ## What a line stands for -/

/-- What a line of code stands for. -/
def Line.reading : Line → Reading
  | plain _ => .nothing
  | openEnumeration name => .enumeration name
  | enumerator name => .item name
  | lastEnumerator name => .item name
  | closeEnumeration _ => .closing
  | declaration d => .array .declared d none
  | definition d => .array (.ofStatic d.isStatic) d.declarator (some d.values)
  | openArray d => .array .exported d none
  | element name => .item name
  | closeArray => .closing

/-- What the parts of a line must be like for the line to be legible. -/
def Line.Worded : Line → Prop
  | plain text => text = "" ∨ ∃ comment, text = "  // " ++ comment
  | openEnumeration name => IsWord name
  | enumerator name => IsWord name
  | lastEnumerator name => IsWord name
  | closeEnumeration _ => True
  | declaration d => d.Worded
  | definition d => d.declarator.Worded ∧ d.values ≠ []
  | openArray d => d.Worded
  | element name => IsWord name
  | closeArray => True

theorem word_append {name : String} (h : IsWord name) {rest : List Char}
    (stop : ∀ c ∈ rest.head?, isIdentifierTail c = false) : word (name.toList ++ rest) = name := by
  rw [word, takeWhile_append_of_stop h stop, String.ofList_toList]

/-- A name that is set in is read up to the comma, if there is one. -/
theorem read_item {name : String} (h : IsWord name) {rest : String}
    (stop : ∀ c ∈ rest.toList.head?, c = ',') : read ("  " ++ (name ++ rest)) = .item name := by
  have noSlash : (name.toList ++ rest.toList).head? ≠ some '/' := by
    rw [List.head?_append]
    cases first : name.toList.head? with
    | none => exact fun slash => absurd (stop _ slash) (by decide)
    | some c =>
      rintro same
      obtain rfl := Option.some.inj same
      exact h.notMem rfl (List.mem_of_head? first)
  have atEnd : ∀ c ∈ rest.toList.head?, isIdentifierTail c = false := by
    intro c mem
    rw [stop c mem]
    rfl
  rw [read_indented, String.toList_append, readIndented, if_neg noSlash, word_append h atEnd]

/-- Type, name and bound are read off the line of an array, whatever comes after them. -/
theorem read_declarator {linkage : Linkage} {d : Declarator} (h : d.Worded) {line : String}
    {back : List Char} (absent : '[' ∉ back)
    (shape : line.toList = linkage.words.toList ++ (d.elementType.toList ++ ' ' ::
      (d.name.toList ++ '[' :: (d.bound.toList ++ ']' :: back)))) :
    read line = .array linkage d ((initializerText? line).bind numbers?) := by
  rw [read_array shape, readArray, declarator?_toList h absent]

theorem read_declaration {d : Declarator} (h : d.Worded) {line : String}
    (written : (Line.declaration d).text? = some line) : read line = .array .declared d none := by
  have shape : line.toList = Linkage.declared.words.toList ++ (d.elementType.toList ++ ' ' ::
      (d.name.toList ++ '[' :: (d.bound.toList ++ ']' :: [';']))) := by
    simp [← Option.some.inj written, Linkage.words]
  have ends : line.toList =
      ("extern const " ++ d.elementType ++ " " ++ d.name ++ "[" ++ d.bound).toList ++
        [']', ';'] := by
    simp [← Option.some.inj written]
  rw [read_declarator h (by decide) shape, initializerText?_eq_none ends (by decide)]
  rfl

theorem read_openArray {d : Declarator} (h : d.Worded) {line : String}
    (written : (Line.openArray d).text? = some line) : read line = .array .exported d none := by
  have shape : line.toList = Linkage.exported.words.toList ++ (d.elementType.toList ++ ' ' ::
      (d.name.toList ++ '[' :: (d.bound.toList ++ ']' :: " = \x7b".toList))) := by
    simp [← Option.some.inj written, Linkage.words]
  have ends : line.toList =
      ("const " ++ d.elementType ++ " " ++ d.name ++ "[" ++ d.bound ++ "] =").toList ++
        [' ', '\x7b'] := by
    simp [← Option.some.inj written]
  rw [read_declarator h (by decide) shape, initializerText?_eq_none ends (by decide)]
  rfl

section Definition

variable {d : Definition} {line initializer : String}

/-- An initializer holds no bracket and no brace. -/
theorem notMem_initializer (said : d.initializer? = some initializer) {c : Char}
    (other : ¬ (c ∈ [',', ' '] ∨ Literal.isLiteralChar c = true)) : c ∉ initializer.toList :=
  fun mem => other (isLiteralChar_of_mem_initializer said mem)

theorem toList_of_line? (written : d.line? = some line) :
    ∃ initializer, d.initializer? = some initializer ∧
      line.toList = (Linkage.ofStatic d.isStatic).words.toList ++
        (d.declarator.elementType.toList ++ ' ' :: (d.declarator.name.toList ++ '[' ::
          (d.declarator.bound.toList ++ ']' :: (" = ".toList ++ '\x7b' :: ' ' ::
            (initializer.toList ++ [' ', '\x7d', ';']))))) := by
  obtain ⟨initializer, said, rfl⟩ := Option.map_eq_some_iff.1 written
  refine ⟨initializer, said, ?_⟩
  cases linkage : d.isStatic <;>
    simp [linkage, Definition.linkage, Declarator.text, Linkage.words, Linkage.ofStatic]

theorem initializerText?_of_line? (written : d.line? = some line) :
    ∃ initializer, d.initializer? = some initializer ∧
      initializerText? line = some initializer.toList := by
  obtain ⟨initializer, said, rfl⟩ := Option.map_eq_some_iff.1 written
  have ends : (d.linkage ++ d.declarator.text ++ " = \x7b " ++ initializer ++ " \x7d;").toList =
      (d.linkage ++ d.declarator.text ++ " = ").toList ++
        '\x7b' :: ' ' :: (initializer.toList ++ [' ', '\x7d', ';']) := by
    simp
  exact ⟨initializer, said, initializerText?_of_toList ends (notMem_initializer said (by decide))⟩

theorem read_definition (h : d.declarator.Worded) (filled : d.values ≠ [])
    (written : d.line? = some line) :
    read line = .array (.ofStatic d.isStatic) d.declarator (some d.values) := by
  obtain ⟨initializer, said, shape⟩ := toList_of_line? written
  obtain ⟨initializer', said', found⟩ := initializerText?_of_line? written
  have bracket : '[' ∉ initializer.toList := notMem_initializer said (by decide)
  rw [read_declarator h (by simp [bracket]) shape, found, Option.bind_some,
    numbers?_of_initializer? filled said']

end Definition

/-- **The text of a line reads as what the line stands for.** -/
theorem read_of_text? {line : Line} (h : line.Worded) {text : String}
    (written : line.text? = some text) : read text = line.reading := by
  cases line with
  | plain said =>
    obtain rfl := Option.some.inj written
    obtain rfl | ⟨comment, rfl⟩ := h
    · rfl
    · rw [show "  // " = "  " ++ "// " from rfl, String.append_assoc, read_indented,
        String.toList_append]
      rfl
  | openEnumeration name =>
    obtain rfl := Option.some.inj written
    rw [String.append_assoc, read_enumeration, String.toList_append]
    exact congrArg Reading.enumeration (word_append h (by simp [isIdentifierTail]))
  | enumerator name =>
    obtain rfl := Option.some.inj written
    rw [String.append_assoc, read_item h (by simp)]
    rfl
  | lastEnumerator name =>
    obtain rfl := Option.some.inj written
    have alone : read ("  " ++ (name ++ "")) = .item name := read_item h (by simp)
    rwa [String.append_empty] at alone
  | closeEnumeration name =>
    obtain rfl := Option.some.inj written
    rw [show "\x7d; // enum " = "\x7d;" ++ " // enum " from rfl, String.append_assoc, read_closing]
    rfl
  | declaration d => exact read_declaration h written
  | definition d => exact read_definition h.1 h.2 (text?_definition d ▸ written)
  | openArray d => exact read_openArray h written
  | element name =>
    obtain rfl := Option.some.inj written
    rw [String.append_assoc, read_item h (by simp)]
    rfl
  | closeArray =>
    obtain rfl := Option.some.inj written
    rfl

/-- A draft reads as `code`: each line of it is spelled as the line of the code, and says what that
stands for. Nothing is asked of what plain lines say, since they may hold any text. -/
structure ReadAs (draft : Draft) (code : List Line) : Prop where
  text : code.map Line.text? = draft
  reading : ∀ line ∈ code, ∀ text, line.text? = some text →
    line = .plain text ∨ read text = line.reading

/-- A page reads as its code if the blocks of it do. -/
theorem readAs_page {top bottom : List String} {blocks : List (List Line)} {draft : Draft}
    (text : (page top blocks bottom).map Line.text? = draft)
    (worded : ∀ block ∈ blocks, ∀ line ∈ block, line.Worded) :
    ReadAs draft (page top blocks bottom) := by
  refine ⟨text, fun line mem said written => ?_⟩
  obtain ⟨other, rfl⟩ | ⟨block, blockMem, inBlock⟩ := mem_page mem
  · exact .inl (congrArg Line.plain (Option.some.inj written))
  · exact .inr (read_of_text? (worded block blockMem line inBlock) written)

example : read "static const struct \x7b int a; \x7d x_y[2] = \x7b -0x01, 7 \x7d;" =
    .array .hidden ⟨"struct \x7b int a; \x7d", "x_y", "2"⟩ (some [-1, 7]) := by
  decide +kernel

end GlyphTables.Cpp
