import Mathlib
import GlyphTables.Glyph

/-!
# Packed rows

Packing a row doubles a byte for each dot and adds the dot to it, so the byte is the number that the
row is when its dots are read as binary digits. A row is shorter than a byte, so none of its dots is
pushed out at the top.

* `toNat_packRow`   : the byte of a row is that number;
* `testBit_packRow` : its bits are the dots of the row, the leftmost highest;
* `unpackRow_packRow`, `packRow_unpackRow` : so a row and its byte say the same;
* `pack_unpack`, `unpack_pack` : and so do a glyph and its bytes.
-/

namespace GlyphTables.Glyph

/-! ## Dots as binary digits -/

/-- The number `n` with the given binary digits behind it. -/
def number (n : Nat) (dots : List Bool) : Nat :=
  dots.foldl (fun n dot => Nat.bit dot n) n

variable {n k : Nat}

theorem number_cons (n : Nat) (dot : Bool) (dots : List Bool) :
    number n (dot :: dots) = number (Nat.bit dot n) dots := rfl

theorem number_concat (n : Nat) (dots : List Bool) (dot : Bool) :
    number n (dots ++ [dot]) = Nat.bit dot (number n dots) := by
  rw [number, List.foldl_append]
  rfl

/-- Each further dot makes room for one more bit. -/
theorem number_lt (h : n < 2 ^ k) (dots : List Bool) : number n dots < 2 ^ (k + dots.length) := by
  induction dots using List.reverseRecOn with
  | nil => exact h
  | append_singleton dots dot ih =>
    rw [number_concat, List.length_append, List.length_singleton, ← Nat.add_assoc,
      Nat.bit_lt_two_pow_succ_iff]
    exact ih

/-- The bits of a number are its digits from the right. -/
theorem reverse_getElem?_eq_testBit (n : Nat) {dots : List Bool} {i : Nat} (h : i < dots.length) :
    dots.reverse[i]? = some ((number n dots).testBit i) := by
  induction dots using List.reverseRecOn generalizing i with
  | nil => cases h
  | append_singleton dots dot ih =>
    rw [number_concat, List.reverse_append, List.reverse_singleton, List.singleton_append]
    cases i with
    | zero => simp
    | succ i =>
      rw [List.getElem?_cons_succ, Nat.testBit_bit_succ]
      exact ih (by simpa using h)

/-! ## Packing a row -/

/-- A byte with one more dot, as packing pushes it in. -/
def pushDot (byte : UInt8) (dot : Bool) : UInt8 :=
  (byte <<< 1) + if dot then 1 else 0

theorem packRow_eq_foldl (row : Vector Bool width) : packRow row = row.toList.foldl pushDot 0 :=
  (Vector.foldl_toList pushDot).symm

/-- As long as the highest bit is clear, pushing a dot in loses nothing. -/
theorem toNat_pushDot {byte : UInt8} (h : byte.toNat < 2 ^ 7) (dot : Bool) :
    (pushDot byte dot).toNat = Nat.bit dot byte.toNat := by
  have doubled : (byte <<< 1).toNat = 2 * byte.toNat := by
    rw [UInt8.toNat_shiftLeft, Nat.shiftLeft_eq]
    simp
    omega
  cases dot with
  | false => simp [pushDot, doubled]
  | true =>
    simp [pushDot, doubled]
    omega

theorem toNat_foldl_pushDot (dots : List Bool) {byte : UInt8} (h : byte.toNat < 2 ^ k)
    (room : k + dots.length ≤ 8) :
    (dots.foldl pushDot byte).toNat = number byte.toNat dots := by
  induction dots generalizing byte k with
  | nil => rfl
  | cons dot dots ih =>
    rw [List.length_cons] at room
    have below : byte.toNat < 2 ^ 7 := h.trans_le (Nat.pow_le_pow_right (by omega) (by omega))
    have pushed := toNat_pushDot below dot
    have next : (pushDot byte dot).toNat < 2 ^ (k + 1) := by
      rwa [pushed, Nat.bit_lt_two_pow_succ_iff]
    rw [List.foldl_cons, ih next (by omega), pushed, number_cons]

/-- The byte of a row is the number that its dots are. -/
theorem toNat_packRow (row : Vector Bool width) : (packRow row).toNat = number 0 row.toList := by
  rw [packRow_eq_foldl, toNat_foldl_pushDot (k := 0) row.toList (by decide) (by simp [width])]
  rfl

theorem toNat_packRow_lt (row : Vector Bool width) : (packRow row).toNat < 2 ^ width := by
  have bound := number_lt (n := 0) (k := 0) (by decide) row.toList
  rwa [← toNat_packRow, Vector.length_toList, Nat.zero_add] at bound

/-- The leftmost dot of a row is the highest bit of its number. -/
theorem testBit_packRow (row : Vector Bool width) (c : Fin width) :
    (packRow row).toNat.testBit (width - 1 - c) = row.get c := by
  have inRow : width - 1 - c < row.toList.length := by
    rw [Vector.length_toList]
    omega
  have bit := reverse_getElem?_eq_testBit 0 inRow
  have fromRight : row.toList.length - 1 - (width - 1 - c) = c := by
    rw [Vector.length_toList]
    omega
  rw [List.getElem?_reverse inRow, fromRight, ← toNat_packRow] at bit
  simpa [Vector.get_eq_getElem] using bit.symm

/-! ## Unpacking -/

/-- The row whose dots are the low bits of a byte. -/
def unpackRow (byte : UInt8) : Vector Bool width :=
  Vector.ofFn fun c => byte.toNat.testBit (width - 1 - c)

def unpack (bytes : Vector UInt8 height) : Glyph :=
  ⟨bytes.map unpackRow⟩

theorem unpackRow_packRow (row : Vector Bool width) : unpackRow (packRow row) = row := by
  refine Vector.ext fun c hc => ?_
  rw [unpackRow, Vector.getElem_ofFn]
  exact testBit_packRow row ⟨c, hc⟩

/-- The bytes that rows are packed to. -/
theorem packRow_unpackRow {byte : UInt8} (h : byte.toNat < 2 ^ width) :
    packRow (unpackRow byte) = byte := by
  refine UInt8.toNat_inj.1 (Nat.eq_of_testBit_eq fun i => ?_)
  by_cases hi : i < width
  · have same := testBit_packRow (unpackRow byte) ⟨width - 1 - i, by omega⟩
    have fromRight : width - 1 - (width - 1 - i) = i := by omega
    rw [Vector.get_eq_getElem, unpackRow, Vector.getElem_ofFn, ← unpackRow] at same
    rwa [fromRight] at same
  · have above : 2 ^ width ≤ 2 ^ i := Nat.pow_le_pow_right (by decide) (by omega)
    rw [Nat.testBit_lt_two_pow ((toNat_packRow_lt _).trans_le above),
      Nat.testBit_lt_two_pow (h.trans_le above)]

/-- Packing keeps every dot. -/
theorem unpack_pack (glyph : Glyph) : unpack glyph.pack = glyph := by
  refine congrArg Glyph.mk (Vector.ext fun r hr => ?_)
  rw [pack, Vector.getElem_map, Vector.getElem_map, unpackRow_packRow]

/-- Bytes are packed glyphs if no bit is set outside of the grid. -/
theorem pack_unpack {bytes : Vector UInt8 height}
    (h : ∀ r : Fin height, (bytes.get r).toNat < 2 ^ width) : (unpack bytes).pack = bytes := by
  refine Vector.ext fun r hr => ?_
  rw [pack, unpack, Vector.getElem_map, Vector.getElem_map]
  exact packRow_unpackRow (h ⟨r, hr⟩)

end GlyphTables.Glyph
