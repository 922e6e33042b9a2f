import Mathlib

/-!
# Lists

What the theory needs of lists in general: leaving out what a test admits at either end, and lists
that agree item by item.

* `takeWhile_append_of_stop`, `takeWhile_ne_append` : the part of a list before a mark;
* `strip_append_left`, `strip_append_right` : more of the same at an end is left out as well;
* `exists_append_strip`, `exists_ends_of_strip` : what is left out, and what is left;
* `find?_eq_some_iff_of_subsingleton` : searching for the only item of its kind;
* `getElem?_of_repeat_append` : where two lists in a row can repeat an item;
* `map_eq_of_forall₂`, `forall_mem_of_forall₂` : what related items have in common, their lists have;
* `mapM_eq_some_iff_forall₂` : a list and what becomes of it item by item.
-/

namespace GlyphTables

/-! ## Up to a mark -/

section Mark

variable {α : Type} {p : α → Bool} {front : List α}

/-- What satisfies `p` is taken up to where something else begins. -/
theorem takeWhile_append_of_stop (h : ∀ x ∈ front, p x = true) {back : List α}
    (stop : ∀ x ∈ back.head?, p x = false) : (front ++ back).takeWhile p = front := by
  have none : back.takeWhile p = [] := by
    cases back with
    | nil => rfl
    | cons x back => exact List.takeWhile_cons_of_neg (by simp [stop x rfl])
  rw [List.takeWhile_append_of_pos h, none, List.append_nil]

theorem takeWhile_ne_append [DecidableEq α] {mark : α} (absent : mark ∉ front) (rest : List α) :
    (front ++ mark :: rest).takeWhile (· ≠ mark) = front := by
  have differ : ∀ x ∈ front, decide (x ≠ mark) = true := by
    intro x mem
    rw [decide_eq_true_eq]
    rintro rfl
    exact absent mem
  exact takeWhile_append_of_stop differ (by simp)

end Mark

/-! ## Both ends of a list -/

section Strip

variable {α : Type} {p : α → Bool}

/-- Leaves out what satisfies `p` at either end. -/
def strip (p : α → Bool) (l : List α) : List α :=
  (l.dropWhile p).rdropWhile p

theorem rdropWhile_append_of_pos (l : List α) {back : List α} (h : ∀ x ∈ back, p x = true) :
    (l ++ back).rdropWhile p = l.rdropWhile p := by
  simp only [List.rdropWhile, List.reverse_append]
  rw [List.dropWhile_append_of_pos]
  intro x hx
  exact h x (List.mem_reverse.1 hx)

theorem strip_append_left {front : List α} (h : ∀ x ∈ front, p x = true) (l : List α) :
    strip p (front ++ l) = strip p l := by
  rw [strip, List.dropWhile_append_of_pos h, strip]

theorem strip_append_right (l : List α) {back : List α} (h : ∀ x ∈ back, p x = true) :
    strip p (l ++ back) = strip p l := by
  unfold strip
  rw [List.dropWhile_append]
  split
  · rename_i empty
    rw [List.isEmpty_iff.1 empty, List.dropWhile_eq_nil_iff.2 h]
  · exact rdropWhile_append_of_pos _ h

/-- Nothing is left exactly of a list that holds nothing else. -/
theorem strip_eq_nil_iff (l : List α) : strip p l = [] ↔ ∀ x ∈ l, p x = true := by
  constructor
  · intro h x hx
    rw [strip, List.rdropWhile_eq_nil_iff] at h
    rw [← List.takeWhile_append_dropWhile (p := p) (l := l), List.mem_append] at hx
    obtain hx | hx := hx
    · exact List.mem_takeWhile_imp hx
    · exact h x hx
  · intro h
    rw [strip, List.dropWhile_eq_nil_iff.2 h, List.rdropWhile_nil]

/-- Ends that are to stay keep all that is between them. -/
theorem strip_cons_concat {l middle : List α} {first last : α} (hl : l = first :: middle)
    (hl' : ∃ front, l = front ++ [last]) (hf : p first = false) (hb : p last = false) :
    strip p l = l := by
  obtain ⟨front, hfront⟩ := hl'
  rw [strip, hl, List.dropWhile_cons_of_neg (by simp [hf]), ← hl, hfront,
    List.rdropWhile_concat_neg _ _ _ (by simp [hb])]

theorem strip_eq_self {l : List α} (h : ∀ x ∈ l, p x = false) : strip p l = l := by
  have front : l.dropWhile p = l := by
    rw [List.dropWhile_eq_self_iff]
    intro filled
    simp [h _ (List.getElem_mem filled)]
  rw [strip, front, List.rdropWhile_eq_self_iff]
  intro filled
  simp [h _ (List.getLast_mem filled)]

/-- What is left of a list stands between two pieces that satisfy `p`. -/
theorem exists_append_strip (p : α → Bool) (l : List α) :
    ∃ front back, (∀ x ∈ front, p x = true) ∧ (∀ x ∈ back, p x = true) ∧
      l = front ++ strip p l ++ back := by
  refine ⟨l.takeWhile p, (l.dropWhile p).rtakeWhile p, ?_, ?_, ?_⟩
  · exact fun x hx => List.mem_takeWhile_imp hx
  · exact fun x hx => List.mem_rtakeWhile_imp hx
  · rw [List.append_assoc, strip, List.rdropWhile_append_rtakeWhile,
      List.takeWhile_append_dropWhile]

/-- Neither end of what is left satisfies `p`. -/
theorem exists_ends_of_strip {l : List α} (h : strip p l ≠ []) :
    (∃ first middle, strip p l = first :: middle ∧ p first = false) ∧
      ∃ front last, strip p l = front ++ [last] ∧ p last = false := by
  constructor
  · obtain ⟨first, middle, hs⟩ := List.exists_cons_of_ne_nil h
    refine ⟨first, middle, hs, ?_⟩
    -- the head of what is left is the head of what the first pass leaves
    obtain ⟨rest, hr⟩ : strip p l <+: l.dropWhile p := List.rdropWhile_prefix p _
    have head := List.head?_dropWhile_not p l
    rw [← hr, hs] at head
    exact head
  · refine ⟨(strip p l).dropLast, (strip p l).getLast h, ?_, ?_⟩
    · exact (List.dropLast_append_getLast h).symm
    · exact Bool.eq_false_of_not_eq_true (List.rdropWhile_last_not p (l.dropWhile p) h)

end Strip

/-! ## Searching -/

/-- Where only one item passes the test, searching finds any item that does. -/
theorem find?_eq_some_iff_of_subsingleton {α : Type} {p : α → Bool} {l : List α}
    (alone : {x | x ∈ l ∧ p x = true}.Subsingleton) (x : α) :
    l.find? p = some x ↔ x ∈ l ∧ p x = true := by
  constructor
  · intro found
    exact ⟨List.mem_of_find?_eq_some found, List.find?_some found⟩
  · intro hx
    cases found : l.find? p with
    | none => exact absurd hx.2 (List.find?_eq_none.1 found x hx.1)
    | some y =>
      have hy : y ∈ l ∧ p y = true := ⟨List.mem_of_find?_eq_some found, List.find?_some found⟩
      rw [alone hx hy]

/-! ## Repetitions -/

/-- Where neither of two lists repeats an item, the two in a row can only repeat an item of the first
in the second. -/
theorem getElem?_of_repeat_append {α : Type} {xs ys : List α} (nodup : xs.Nodup) (nodup' : ys.Nodup)
    {i j : Nat} (lt : i < j) {x : α} (hi : (xs ++ ys)[i]? = some x)
    (hj : (xs ++ ys)[j]? = some x) :
    xs[i]? = some x ∧ ∃ q, j = xs.length + q ∧ ys[q]? = some x := by
  rw [List.nodup_iff_getElem?_ne_getElem?] at nodup nodup'
  obtain inFirst | inSecond := Nat.lt_or_ge j xs.length
  · rw [List.getElem?_append_left (lt.trans inFirst)] at hi
    rw [List.getElem?_append_left inFirst] at hj
    exact absurd (hi.trans hj.symm) (nodup i j lt inFirst)
  rw [List.getElem?_append_right inSecond] at hj
  obtain inFirst | inSecond' := Nat.lt_or_ge i xs.length
  · rw [List.getElem?_append_left inFirst] at hi
    exact ⟨hi, j - xs.length, by omega, hj⟩
  · rw [List.getElem?_append_right inSecond'] at hi
    obtain ⟨bound, -⟩ := List.getElem?_eq_some_iff.1 hj
    exact absurd (hi.trans hj.symm) (nodup' _ _ (by omega) bound)

/-! ## Lists that agree item by item -/

section Itemwise

variable {α β γ : Type} {R : α → β → Prop} {xs : List α} {ys : List β}

theorem map_eq_of_forall₂ {f : α → γ} {g : β → γ} (agree : ∀ x y, R x y → f x = g y)
    (h : List.Forall₂ R xs ys) : xs.map f = ys.map g := by
  induction h with
  | nil => rfl
  | cons related _ ih => rw [List.map_cons, List.map_cons, agree _ _ related, ih]

theorem flatMap_eq_of_forall₂ {f : α → List γ} {g : β → List γ}
    (agree : ∀ x y, R x y → f x = g y) (h : List.Forall₂ R xs ys) :
    xs.flatMap f = ys.flatMap g := by
  rw [List.flatMap_def, List.flatMap_def, map_eq_of_forall₂ agree h]

theorem forall_mem_of_forall₂ {P : α → Prop} {Q : β → Prop} (carry : ∀ x y, R x y → P x → Q y)
    (h : List.Forall₂ R xs ys) (all : ∀ x ∈ xs, P x) : ∀ y ∈ ys, Q y := by
  induction h with
  | nil => simp
  | cons related _ ih =>
    obtain ⟨first, others⟩ := List.forall_mem_cons.1 all
    exact List.forall_mem_cons.2 ⟨carry _ _ related first, ih others⟩

theorem forall₂_modifyHead {f : α → α} {g : β → β} (carry : ∀ x y, R x y → R (f x) (g y))
    (h : List.Forall₂ R xs ys) : List.Forall₂ R (xs.modifyHead f) (ys.modifyHead g) := by
  cases h with
  | nil => exact .nil
  | cons related others => exact .cons (carry _ _ related) others

theorem mapM_eq_some_iff_forall₂ {f : α → Option β} :
    xs.mapM f = some ys ↔ List.Forall₂ (fun x y => f x = some y) xs ys := by
  induction xs generalizing ys with
  | nil => cases ys <;> simp
  | cons x xs ih =>
    rw [List.mapM_cons]
    cases head : f x with
    | none => cases ys <;> simp [head]
    | some y =>
      cases tail : xs.mapM f with
      | none => cases ys <;> simp [head, tail, ← ih]
      | some others => cases ys <;> simp [head, tail, ← ih]

end Itemwise

end GlyphTables
