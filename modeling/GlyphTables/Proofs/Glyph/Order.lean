import GlyphTables.Proofs.Glyph.Printing

/-!
# The order of glyphs

Glyphs are compared dot by dot and their bytes by size. The dot that a row begins with is the highest
bit of its byte, so it counts for more than all dots after it, and the two orders are the same.

* `vectorLex_eq_lt_iff` : what comes first is told by the first place that differs;
* `compare_eq_lt_iff`, `comparePacked_eq_lt_iff` : what that means for glyphs and for bytes;
* `compare_number`     : numbers with as many digits are compared digit by digit;
* `comparePacked_pack` : so bytes are compared as the glyphs are.
-/

namespace GlyphTables

/-! ## Comparing place by place -/

section Places

variable {α β : Type} {cmp : α → α → Ordering}

theorem compareLex_map (f : β → α) (xs ys : List β) :
    List.compareLex cmp (xs.map f) (ys.map f) =
      List.compareLex (fun x y => cmp (f x) (f y)) xs ys := by
  induction xs generalizing ys with
  | nil => cases ys <;> rfl
  | cons x xs ih =>
    cases ys with
    | nil => rfl
    | cons y ys => rw [List.map_cons, List.map_cons, List.compareLex_cons_cons, ih,
        List.compareLex_cons_cons]

/-- Lists of one length are ordered by the first place where they differ. -/
theorem listLex_eq_lt_iff {xs ys : List α} (h : xs.length = ys.length) :
    List.compareLex cmp xs ys = .lt ↔
      ∃ (i : Nat) (hx : i < xs.length) (hy : i < ys.length), cmp xs[i] ys[i] = .lt ∧
        ∀ (j : Nat) (hj : j < i), cmp xs[j] ys[j] = .eq := by
  induction xs generalizing ys with
  | nil =>
    cases ys with
    | nil => simp [List.compareLex_nil_nil]
    | cons y ys => cases h
  | cons x xs ih =>
    cases ys with
    | nil => cases h
    | cons y ys =>
      have h := Nat.succ.inj h
      rw [List.compareLex_cons_cons, Ordering.then_eq_lt, ih h]
      constructor
      · rintro (first | ⟨first, i, hx, hy, here, before⟩)
        · exact ⟨0, by simp, by simp, first, by simp⟩
        · refine ⟨i + 1, by simpa using hx, by simpa using hy, here, fun j hj => ?_⟩
          cases j with
          | zero => exact first
          | succ j => exact before j (by omega)
      · rintro ⟨i, hx, hy, here, before⟩
        cases i with
        | zero => exact .inl here
        | succ i =>
          refine .inr ⟨before 0 (by omega), i, by simpa using hx, by simpa using hy, here, ?_⟩
          exact fun j hj => before (j + 1) (by omega)

/-- What comes first is told by the first place that differs. -/
theorem vectorLex_eq_lt_iff {n : Nat} (xs ys : Vector α n) :
    Vector.compareLex cmp xs ys = .lt ↔
      ∃ i : Fin n, cmp (xs.get i) (ys.get i) = .lt ∧ ∀ j < i, cmp (xs.get j) (ys.get j) = .eq := by
  rw [Vector.compareLex_eq_compareLex_toList, listLex_eq_lt_iff (by simp)]
  simp only [Vector.length_toList, Vector.getElem_toList]
  constructor
  · rintro ⟨i, hi, _, here, before⟩
    exact ⟨⟨i, hi⟩, here, fun j hj => before j hj⟩
  · rintro ⟨i, here, before⟩
    exact ⟨i, i.isLt, i.isLt, here, fun j hj => before ⟨j, hj.trans i.isLt⟩ hj⟩

end Places

namespace Glyph

variable {a b : Glyph}

/-! ## The order of the dots -/

/-- At the first dot at which the two differ, it is `b` that has it set. -/
def Precedes (a b : Glyph) : Prop :=
  ∃ r c, a.dot r c = false ∧ b.dot r c = true ∧ (∀ d < c, a.dot r d = b.dot r d) ∧
    ∀ q < r, a.rows.get q = b.rows.get q

theorem compare_dot_eq_lt_iff (x y : Bool) : compare x y = .lt ↔ x = false ∧ y = true := by
  cases x <;> cases y <;> decide

theorem compare_eq_lt_iff (a b : Glyph) : compare a b = .lt ↔ a.Precedes b := by
  change Vector.compareLex (Vector.compareLex compare) a.rows b.rows = .lt ↔ _
  simp only [vectorLex_eq_lt_iff, compare_dot_eq_lt_iff, Std.LawfulEqCmp.compare_eq_iff_eq]
  constructor
  · rintro ⟨r, ⟨c, ⟨clear, set⟩, before⟩, above⟩
    exact ⟨r, c, clear, set, before, above⟩
  · rintro ⟨r, c, clear, set, before, above⟩
    exact ⟨r, ⟨c, ⟨clear, set⟩, before⟩, above⟩

theorem compare_eq_swap (a b : Glyph) : compare a b = (compare b a).swap := by
  change Vector.compareLex (Vector.compareLex compare) a.rows b.rows =
    (Vector.compareLex (Vector.compareLex compare) b.rows a.rows).swap
  exact Std.OrientedCmp.eq_swap

theorem compare_eq_eq_iff (a b : Glyph) : compare a b = .eq ↔ a = b := by
  change Vector.compareLex (Vector.compareLex compare) a.rows b.rows = .eq ↔ _
  rw [Std.LawfulEqCmp.compare_eq_iff_eq]
  exact ⟨congrArg Glyph.mk, congrArg Glyph.rows⟩

/-! ## The order of the bytes -/

theorem comparePacked_eq_lt_iff (x y : Vector UInt8 height) :
    comparePacked x y = .lt ↔ ∃ r : Fin height, x.get r < y.get r ∧ ∀ q < r, x.get q = y.get q := by
  rw [comparePacked, vectorLex_eq_lt_iff]
  simp only [UInt8.compare_eq_toNat_compare_toNat, Nat.compare_eq_lt, Nat.compare_eq_eq,
    UInt8.toNat_inj, ← UInt8.lt_iff_toNat_lt]

/-- A last digit decides between numbers that are equal without it. -/
theorem compare_bit (m n : Nat) (x y : Bool) :
    compare (Nat.bit x m) (Nat.bit y n) = (compare m n).then (compare x y) := by
  obtain below | rfl | above := Nat.lt_trichotomy m n
  · rw [Nat.compare_eq_lt.2 below, Nat.compare_eq_lt.2 (Nat.bit_lt_bit x y below)]
    rfl
  · rw [Nat.compare_eq_eq.2 rfl, Ordering.eq_then]
    cases x <;> cases y
    · exact Nat.compare_eq_eq.2 rfl
    · exact Nat.compare_eq_lt.2 (Nat.lt_succ_self (2 * m))
    · exact Nat.compare_eq_gt.2 (Nat.lt_succ_self (2 * m))
    · exact Nat.compare_eq_eq.2 rfl
  · rw [Nat.compare_eq_gt.2 above, Nat.compare_eq_gt.2 (Nat.bit_lt_bit y x above)]
    rfl

/-- Numbers with as many digits are compared digit by digit. -/
theorem compare_number (m n : Nat) {xs ys : List Bool} (h : xs.length = ys.length) :
    compare (number m xs) (number n ys) = (compare m n).then (List.compareLex compare xs ys) := by
  induction xs generalizing m n ys with
  | nil =>
    cases ys with
    | nil => exact Ordering.then_eq.symm
    | cons y ys => cases h
  | cons x xs ih =>
    cases ys with
    | nil => cases h
    | cons y ys =>
      rw [number_cons, number_cons, ih _ _ (Nat.succ.inj h), compare_bit, List.compareLex_cons_cons,
        Ordering.then_assoc]

/-- The order of the numbers of two rows is the order of their dots from the left. -/
theorem compare_packRow (x y : Vector Bool width) :
    compare (packRow x) (packRow y) = Vector.compareLex compare x y := by
  rw [UInt8.compare_eq_toNat_compare_toNat, toNat_packRow, toNat_packRow,
    compare_number 0 0 (by simp), Nat.compare_eq_eq.2 rfl, Ordering.eq_then,
    Vector.compareLex_eq_compareLex_toList]

theorem comparePacked_pack (a b : Glyph) : comparePacked a.pack b.pack = compare a b := by
  change _ = Vector.compareLex (Vector.compareLex compare) a.rows b.rows
  rw [comparePacked, Vector.compareLex_eq_compareLex_toList, pack, pack, Vector.toList_map,
    Vector.toList_map, compareLex_map, Vector.compareLex_eq_compareLex_toList]
  congr 1
  funext x y
  exact compare_packRow x y

/-- **The bytes of glyphs are ordered as the glyphs are**: of two glyphs, and of two texts that are
read, the one that comes first by its dots comes first by the size of its bytes. -/
theorem comparePacked_eq_compare :
    (∀ a b : Glyph, comparePacked a.pack b.pack = compare a b ∧
      (compare a b = .lt ↔ a.Precedes b) ∧ (compare a b = .gt ↔ b.Precedes a) ∧
      (compare a b = .eq ↔ a = b)) ∧
    (∀ x y : Vector UInt8 height, comparePacked x y = .lt ↔
      ∃ r : Fin height, x.get r < y.get r ∧ ∀ q < r, x.get q = y.get q) ∧
    ∀ s t x y, encode s = .ok x → encode t = .ok y →
      ∃ a b, parse s = .ok a ∧ parse t = .ok b ∧ comparePacked x y = compare a b := by
  refine ⟨fun a b => ⟨comparePacked_pack a b, compare_eq_lt_iff a b, ?_, compare_eq_eq_iff a b⟩,
    comparePacked_eq_lt_iff, fun s t x y hs ht => ?_⟩
  · rw [compare_eq_swap, Ordering.swap_eq_gt]
    exact compare_eq_lt_iff b a
  · obtain ⟨a, read, rfl⟩ := (encode_eq_ok_iff s x).1 hs
    obtain ⟨b, read', rfl⟩ := (encode_eq_ok_iff t y).1 ht
    exact ⟨a, b, read, read', comparePacked_pack a b⟩

/-- All dots but the first. -/
def allButFirst : Vector UInt8 height :=
  #v[15, 31, 31, 31, 31, 31, 31, 31]

/-- The first dot alone. -/
def firstAlone : Vector UInt8 height :=
  #v[16, 0, 0, 0, 0, 0, 0, 0]

/-- The first dot counts for more than all others together. -/
theorem comparePacked_eq_compare_firstAlone :
    encode (print allButFirst mixed) = .ok allButFirst ∧
      encode (print firstAlone mixed) = .ok firstAlone ∧
      ∃ a b, parse (print allButFirst mixed) = .ok a ∧ parse (print firstAlone mixed) = .ok b ∧
        compare a b = .lt := by
  have clear : mixed.Clear := by decide
  have others : encode (print allButFirst mixed) = .ok allButFirst :=
    encode_print_of_fits (by decide) clear
  have alone : encode (print firstAlone mixed) = .ok firstAlone :=
    encode_print_of_fits (by decide) clear
  obtain ⟨-, sizes, texts⟩ := comparePacked_eq_compare
  obtain ⟨a, b, read, read', same⟩ := texts _ _ _ _ others alone
  have smaller : comparePacked allButFirst firstAlone = .lt :=
    (sizes _ _).2 ⟨0, by decide, fun q hq => absurd hq (Fin.not_lt_zero q)⟩
  exact ⟨others, alone, a, b, read, read', same ▸ smaller⟩

end Glyph

end GlyphTables
