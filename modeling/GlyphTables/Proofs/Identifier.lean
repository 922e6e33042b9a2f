import Mathlib
import GlyphTables.Identifier

/-!
# Identifiers and letter case

The generated names are put together from the names of tables, entries and arrays and then brought
to one letter case. This file says what survives of the parts:

* `toUpper_eq_toUpper_iff` : names agree in upper case exactly if they agree in lower case;
* `symbol_eq_symbol_iff`   : entries of one table have the same symbol exactly if their names agree
  up to letter case;
* `dataName_eq_dataName_iff` : they have the same data name exactly if their names with those of
  their arrays do;
* `isIdentifier_congr` : letter case does not make or break an identifier;
* `isIdentifier_symbol`, `isIdentifier_dataName` : names made of identifiers are identifiers.
-/

namespace GlyphTables

/-! ## Letter case -/

theorem toUpper_append (a b : String) : (a ++ b).toUpper = a.toUpper ++ b.toUpper := by
  simp [String.toUpper, ← String.toList_inj]

theorem toLower_append (a b : String) : (a ++ b).toLower = a.toLower ++ b.toLower := by
  simp [String.toLower, ← String.toList_inj]

theorem toLower_toUpper (a : String) : a.toUpper.toLower = a.toLower := by
  simp [String.toUpper, String.toLower, ← String.toList_inj]

theorem toUpper_toLower (a : String) : a.toLower.toUpper = a.toUpper := by
  simp [String.toUpper, String.toLower, ← String.toList_inj]

theorem toUpper_eq_toUpper_iff (a b : String) : a.toUpper = b.toUpper ↔ a.toLower = b.toLower := by
  constructor
  · intro h
    rw [← toLower_toUpper a, ← toLower_toUpper b, h]
  · intro h
    rw [← toUpper_toLower a, ← toUpper_toLower b, h]

theorem eqIgnoringCase_iff (a b : String) : eqIgnoringCase a b = true ↔ a.toLower = b.toLower := by
  simp [eqIgnoringCase]

theorem eqIgnoringCase_comm (a b : String) : eqIgnoringCase a b = eqIgnoringCase b a := by
  rw [Bool.eq_iff_iff, eqIgnoringCase_iff, eqIgnoringCase_iff, eq_comm]

theorem eqIgnoringCase_append_right (a b c : String) :
    eqIgnoringCase (a ++ c) (b ++ c) = eqIgnoringCase a b := by
  rw [Bool.eq_iff_iff, eqIgnoringCase_iff, eqIgnoringCase_iff, toLower_append, toLower_append,
    ← String.toList_inj, ← String.toList_inj]
  simp

/-! ## Generated names -/

theorem symbol_eq_append (stem name : String) :
    symbol stem name = stem.toUpper ++ "_" ++ name.toUpper := by
  have h : "_".toUpper = "_" := by decide +kernel
  rw [symbol, toUpper_append, toUpper_append, h]

theorem dataName_eq_append (table entry array : String) :
    dataName table entry array =
      table.toLower ++ "_" ++ entry.toLower ++ "_" ++ array.toLower := by
  have h : "_".toLower = "_" := by decide +kernel
  simp only [dataName, toLower_append, h]

/-- Two symbols of a stem clash where the names differ in case only. -/
theorem symbol_eq_symbol_iff (stem a b : String) :
    symbol stem a = symbol stem b ↔ eqIgnoringCase a b = true := by
  rw [symbol_eq_append, symbol_eq_append, eqIgnoringCase_iff, ← toUpper_eq_toUpper_iff,
    ← String.toList_inj, ← String.toList_inj]
  simp

theorem symbol_ne_symbol_iff (stem a b : String) :
    symbol stem a ≠ symbol stem b ↔ eqIgnoringCase a b = false := by
  rw [Ne, symbol_eq_symbol_iff, Bool.not_eq_true]

/-- Two array names clash where the joined parts differ in case only; where the parts meet does not
show in the name. -/
theorem dataName_eq_dataName_iff (table a x b y : String) :
    dataName table a x = dataName table b y ↔
      eqIgnoringCase (a ++ "_" ++ x) (b ++ "_" ++ y) = true := by
  have split : ∀ entry array, dataName table entry array =
      table.toLower ++ "_".toLower ++ (entry ++ "_" ++ array).toLower := by
    intro entry array
    rw [dataName, ← toLower_append, ← toLower_append]
    simp only [String.append_assoc]
  rw [split, split, eqIgnoringCase_iff, ← String.toList_inj, ← String.toList_inj]
  simp

/-! ## Formation -/

theorem isIdentifierTail_of_isIdentifierHead {c : Char} (h : isIdentifierHead c = true) :
    isIdentifierTail c = true := by
  simp only [isIdentifierHead, isIdentifierTail, Char.isAlphanum, Bool.or_eq_true] at h ⊢
  tauto

theorem isIdentifierTail_of_mem {name : String} (h : isIdentifier name = true) {c : Char}
    (hc : c ∈ name.toList) : isIdentifierTail c = true := by
  unfold isIdentifier at h
  split at h
  · cases h
  · rename_i d rest hl
    rw [hl] at hc
    simp only [Bool.and_eq_true, List.all_eq_true] at h
    rcases List.mem_cons.1 hc with rfl | hc
    · exact isIdentifierTail_of_isIdentifierHead h.1
    · exact h.2 c hc

theorem isIdentifier_append {a b : String} (ha : isIdentifier a = true)
    (hb : ∀ c ∈ b.toList, isIdentifierTail c = true) : isIdentifier (a ++ b) = true := by
  unfold isIdentifier at ha ⊢
  split at ha
  · cases ha
  · rename_i c rest hl
    simp only [Bool.and_eq_true, List.all_eq_true] at ha
    simp only [String.toList_append, hl, List.cons_append, Bool.and_eq_true, List.all_append,
      List.all_eq_true]
    exact ⟨ha.1, ha.2, hb⟩

/-- A letter stays a letter when its case changes, and nothing else changes at all. -/
theorem toUpper_eq_self_or_isAlpha (c : Char) : c.toUpper = c ∨ c.toUpper.isAlpha = true := by
  by_cases h : c.isLower = true
  · right
    simp [Char.isAlpha, h]
  · exact .inl (Char.toUpper_eq_of_not_isLower h)

theorem toLower_eq_self_or_isAlpha (c : Char) : c.toLower = c ∨ c.toLower.isAlpha = true := by
  by_cases h : c.isUpper = true
  · right
    simp [Char.isAlpha, h]
  · exact .inl (Char.toLower_eq_of_not_isUpper h)

/-- Recasing letters makes no identifier of another text, nor breaks one. -/
theorem isIdentifier_map {f : Char → Char} (hf : ∀ c, f c = c ∨ (f c).isAlpha = true)
    {name : String} (h : isIdentifier name = true) : isIdentifier (name.map f) = true := by
  have head : ∀ c, isIdentifierHead c = true → isIdentifierHead (f c) = true := by
    intro c hc
    rcases hf c with e | e
    · rwa [e]
    · simp [isIdentifierHead, e]
  have tail : ∀ c, isIdentifierTail c = true → isIdentifierTail (f c) = true := by
    intro c hc
    rcases hf c with e | e
    · rwa [e]
    · simp [isIdentifierTail, Char.isAlphanum, e]
  unfold isIdentifier at h ⊢
  split at h
  · cases h
  · rename_i c rest hl
    simp only [Bool.and_eq_true, List.all_eq_true] at h
    simp only [String.toList_map, hl, List.map_cons, Bool.and_eq_true, List.all_eq_true,
      List.mem_map]
    refine ⟨head c h.1, ?_⟩
    rintro _ ⟨d, hd, rfl⟩
    exact tail d (h.2 d hd)

theorem isIdentifierHead_toLower (c : Char) : isIdentifierHead c.toLower = isIdentifierHead c := by
  unfold isIdentifierHead
  rw [Char.isAlpha_toLower_eq_isAlpha]
  rcases toLower_eq_self_or_isAlpha c with same | letter
  · rw [same]
  · rw [Char.isAlpha_toLower_eq_isAlpha] at letter
    simp [letter]

theorem isIdentifierTail_toLower (c : Char) : isIdentifierTail c.toLower = isIdentifierTail c := by
  unfold isIdentifierTail Char.isAlphanum
  rw [Char.isAlpha_toLower_eq_isAlpha]
  rcases toLower_eq_self_or_isAlpha c with same | letter
  · rw [same]
  · rw [Char.isAlpha_toLower_eq_isAlpha] at letter
    simp [letter]

theorem isIdentifier_toLower (name : String) : isIdentifier name.toLower = isIdentifier name := by
  unfold isIdentifier
  rw [String.toLower, String.toList_map]
  cases name.toList with
  | nil => rfl
  | cons c rest =>
    simp [isIdentifierHead_toLower, isIdentifierTail_toLower, Function.comp_def]

/-- Whether a text is an identifier does not depend on the case of its letters. -/
theorem isIdentifier_congr {a b : String} (same : eqIgnoringCase a b = true) :
    isIdentifier a = isIdentifier b := by
  rw [← isIdentifier_toLower a, (eqIgnoringCase_iff a b).1 same, isIdentifier_toLower]

theorem isIdentifier_join {a b : String} (ha : isIdentifier a = true)
    (hb : isIdentifier b = true) : isIdentifier (a ++ "_" ++ b) = true := by
  have hu : ∀ c ∈ "_".toList, isIdentifierTail c = true := by
    simp [isIdentifierTail]
  exact isIdentifier_append (isIdentifier_append ha hu) fun c hc => isIdentifierTail_of_mem hb hc

theorem isIdentifier_symbol {stem name : String} (hs : isIdentifier stem = true)
    (hn : isIdentifier name = true) : isIdentifier (symbol stem name) = true :=
  isIdentifier_map toUpper_eq_self_or_isAlpha (isIdentifier_join hs hn)

theorem isIdentifier_dataName {table entry array : String} (ht : isIdentifier table = true)
    (he : isIdentifier entry = true) (ha : isIdentifier array = true) :
    isIdentifier (dataName table entry array) = true :=
  isIdentifier_map toLower_eq_self_or_isAlpha (isIdentifier_join (isIdentifier_join ht he) ha)

end GlyphTables
