import GlyphTables.Proofs.Glyph.Packing
import GlyphTables.Proofs.Glyph.Reading

/-!
# Printing packed glyphs

Packed rows are printed as text again: the mark where the bit of a dot is 1, and whatever character
one likes where it is 0, as long as it is neither the mark nor blank. Reading undoes printing, so
every byte that fits a row is the byte of some row, and no two glyphs have the same bytes.

* `rows_print`   : the rows of a printed glyph are the rows that were printed;
* `parse_print`  : reading them gives the glyph whose dots are the bits;
* `encode_print` : so printing undoes packing, and packing undoes printing.
-/

namespace GlyphTables.Glyph

/-! ## Printing -/

/-- A character for each dot that is not set. -/
abbrev Filling := Fin height → Fin width → Char

/-- The characters of a filling stand for clear dots, and none of them is blank. -/
def Filling.Clear (fill : Filling) : Prop :=
  ∀ r c, fill r c ≠ mark ∧ Text.isBlank (fill r c) = false

instance (fill : Filling) : Decidable fill.Clear :=
  inferInstanceAs (Decidable (∀ r c, fill r c ≠ mark ∧ Text.isBlank (fill r c) = false))

def printRow (byte : UInt8) (fill : Fin width → Char) : List Char :=
  List.ofFn fun c => if byte.toNat.testBit (width - 1 - c) then mark else fill c

def printRows (bytes : Vector UInt8 height) (fill : Filling) : List (List Char) :=
  List.ofFn fun r => printRow (bytes.get r) (fill r)

def print (bytes : Vector UInt8 height) (fill : Filling) : String :=
  String.ofList (['\n'].intercalate (printRows bytes fill))

variable {bytes : Vector UInt8 height} {fill : Filling}

theorem isBlank_eq_false_of_mem_printRow {byte : UInt8} {fill : Fin width → Char}
    (clear : ∀ c, Text.isBlank (fill c) = false) {c : Char} (mem : c ∈ printRow byte fill) :
    Text.isBlank c = false := by
  have mark_solid : Text.isBlank mark = false := by decide
  obtain ⟨i, rfl⟩ := List.mem_ofFn.1 mem
  split
  · exact mark_solid
  · exact clear i

/-- A printed glyph has the rows that were printed, as no blank stands in them. -/
theorem rows_print (clear : fill.Clear) :
    Text.rows (print bytes fill).toList = printRows bytes fill := by
  rw [print, String.toList_ofList]
  apply Text.rows_intercalate_of_solid
  · simp [printRows]
  · intro row mem
    obtain ⟨r, rfl⟩ := List.mem_ofFn.1 mem
    refine ⟨by simp [printRow], fun c inRow => ?_⟩
    exact isBlank_eq_false_of_mem_printRow (fun c => (clear r c).2) inRow

/-! ## Reading what was printed -/

theorem getD_printRows (bytes : Vector UInt8 height) (fill : Filling) (r : Fin height) :
    (printRows bytes fill).getD r [] = printRow (bytes.get r) (fill r) := by
  rw [printRows, List.getD_eq_getElem?_getD, List.getElem?_ofFn, dif_pos r.isLt]
  rfl

/-- A character of a printed row is the mark exactly if its bit is 1. -/
theorem getElem?_printRow_eq_mark_iff (byte : UInt8) {fill : Fin width → Char} (c : Fin width)
    (clear : fill c ≠ mark) :
    (printRow byte fill)[c.val]? = some mark ↔ byte.toNat.testBit (width - 1 - c) = true := by
  rw [printRow, List.getElem?_ofFn, dif_pos c.isLt, Option.some.injEq]
  split
  · rename_i set
    exact iff_of_true rfl set
  · rename_i unset
    exact iff_of_false clear unset

/-- The marks of a printed glyph are its set bits. -/
theorem drawn_printRows (clear : fill.Clear) : drawn (printRows bytes fill) = unpack bytes := by
  refine congrArg Glyph.mk (Vector.ext fun r hr => Vector.ext fun c hc => ?_)
  have dot := getElem?_printRow_eq_mark_iff (bytes.get ⟨r, hr⟩) ⟨c, hc⟩ (clear ⟨r, hr⟩ ⟨c, hc⟩).1
  have row := getD_printRows bytes fill ⟨r, hr⟩
  rw [Vector.getElem_ofFn, Vector.getElem_ofFn, Vector.getElem_map, unpackRow, Vector.getElem_ofFn,
    row, Bool.eq_iff_iff, decide_eq_true_iff]
  exact dot

theorem parse_print (clear : fill.Clear) : parse (print bytes fill) = .ok (unpack bytes) := by
  rw [parse_eq_ofRows, rows_print clear, ofRows_eq_ok_iff]
  refine ⟨List.length_ofFn, fun row mem => ?_, drawn_printRows clear⟩
  obtain ⟨r, rfl⟩ := List.mem_ofFn.1 mem
  exact List.length_ofFn

theorem encode_eq_ok_iff (text : String) (bytes : Vector UInt8 height) :
    encode text = .ok bytes ↔ ∃ glyph, parse text = .ok glyph ∧ glyph.pack = bytes := by
  unfold encode
  cases parse text <;> simp [Except.map]

theorem encode_print_of_fits (fits : ∀ r : Fin height, (bytes.get r).toNat < 2 ^ width)
    (clear : fill.Clear) : encode (print bytes fill) = .ok bytes :=
  (encode_eq_ok_iff _ _).2 ⟨unpack bytes, parse_print clear, pack_unpack fits⟩

theorem parse_print_pack {glyph : Glyph} (clear : fill.Clear) :
    parse (print glyph.pack fill) = .ok glyph := by
  rw [parse_print clear, unpack_pack]

/-! ## Glyphs with the same bytes -/

theorem pack_inj {a b : Glyph} : a.pack = b.pack ↔ a = b := by
  constructor
  · intro same
    rw [← unpack_pack a, same, unpack_pack]
  · exact congrArg pack

/-- Whether the dot `c` of row `r` is set. -/
def dot (glyph : Glyph) (r : Fin height) (c : Fin width) : Bool :=
  (glyph.rows.get r).get c

theorem eq_iff_dots (a b : Glyph) : a = b ↔ ∀ r c, a.dot r c = b.dot r c := by
  constructor
  · rintro rfl _ _
    rfl
  · intro same
    refine congrArg Glyph.mk (Vector.ext fun r hr => Vector.ext fun c hc => ?_)
    exact same ⟨r, hr⟩ ⟨c, hc⟩

/-- Whether the character `c` of row `r` of a text is the mark. -/
def marks (text : String) (r : Fin height) (c : Fin width) : Bool :=
  decide (((Text.rows text.toList).getD r [])[c.val]? = some mark)

/-- A glyph shows the marks of its text and nothing else. -/
theorem dot_eq_marks {text : String} {glyph : Glyph} (h : parse text = .ok glyph)
    (r : Fin height) (c : Fin width) : glyph.dot r c = marks text r c := by
  rw [parse_eq_ofRows, ofRows_eq_ok_iff] at h
  obtain ⟨-, -, rfl⟩ := h
  rw [dot, drawn, Vector.get_eq_getElem, Vector.get_eq_getElem, Vector.getElem_ofFn,
    Vector.getElem_ofFn]
  rfl

theorem pack_eq_pack_iff_marks {s t : String} {a b : Glyph} (hs : parse s = .ok a)
    (ht : parse t = .ok b) : a.pack = b.pack ↔ ∀ r c, marks s r c = marks t r c := by
  simp only [pack_inj, eq_iff_dots, dot_eq_marks hs, dot_eq_marks ht]

/-- **Printing undoes packing, and packing undoes printing.** Any bytes that fit the rows are those
of their print, whatever characters stand for the clear dots; a text that is read comes to such
bytes, and their print is read as the same glyph. So two texts have the same bytes exactly if they
mark the same dots. -/
theorem encode_print :
    (∀ (bytes : Vector UInt8 height) (fill : Filling),
      (∀ r : Fin height, (bytes.get r).toNat ≤ 31) → fill.Clear →
        encode (print bytes fill) = .ok bytes) ∧
    (∀ text bytes, encode text = .ok bytes →
      (∀ r : Fin height, (bytes.get r).toNat ≤ 31) ∧
        ∀ fill : Filling, fill.Clear → parse (print bytes fill) = parse text) ∧
    ∀ s t x y, encode s = .ok x → encode t = .ok y →
      (x = y ↔ ∀ r c, marks s r c = marks t r c) := by
  refine ⟨fun bytes fill small clear => ?_, fun text bytes encoded => ?_,
    fun s t x y hs ht => ?_⟩
  · exact encode_print_of_fits (fun r => Nat.lt_succ_of_le (small r)) clear
  · obtain ⟨glyph, read, rfl⟩ := (encode_eq_ok_iff text bytes).1 encoded
    refine ⟨fun r => ?_, fun fill clear => ?_⟩
    · rw [pack, Vector.get_eq_getElem, Vector.getElem_map]
      exact Nat.le_of_lt_succ (toNat_packRow_lt _)
    · rw [parse_print_pack clear, read]
  · obtain ⟨a, read, rfl⟩ := (encode_eq_ok_iff s x).1 hs
    obtain ⟨b, read', rfl⟩ := (encode_eq_ok_iff t y).1 ht
    exact pack_eq_pack_iff_marks read read'

/-- The leftmost dot, and all dots but the leftmost, in turn. -/
def bars : Vector UInt8 height :=
  #v[16, 15, 16, 15, 16, 15, 16, 15]

/-- Small letters and middle dots, in turn. -/
def mixed : Filling := fun r _ =>
  if r.val % 2 = 0 then 'x' else '\u00b7'

theorem encode_print_bars :
    print bars mixed = "Xxxxx\n\u00b7XXXX\nXxxxx\n\u00b7XXXX\nXxxxx\n\u00b7XXXX\nXxxxx\n\u00b7XXXX" ∧
      encode (print bars mixed) = .ok bars ∧
      parse (print bars fun _ _ => '.') = parse (print bars mixed) ∧
      ∀ r c, marks (print bars fun _ _ => '.') r c = marks (print bars mixed) r c := by
  have clear : mixed.Clear := by decide
  have clear' : Filling.Clear fun _ _ => '.' := by decide
  obtain ⟨undone, redone, same⟩ := encode_print
  have encoded := undone bars mixed (by decide) clear
  have encoded' := undone bars (fun _ _ => '.') (by decide) clear'
  exact ⟨by decide +kernel, encoded, (redone _ _ encoded).2 _ clear',
    (same _ _ _ _ encoded' encoded).1 rfl⟩

end GlyphTables.Glyph
