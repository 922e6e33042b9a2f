import Mathlib
import GlyphTables.Literal

/-!
# Reading literals

A literal is read as a natural number, in hexadecimal after `0x` and in decimal otherwise, with a
minus sign in front of it or none.

* `exists_digitChar_of_mem_toDigits` : the characters of written digits;
* `natural?_toDigits`, `natural?_leftpad` : reading digits undoes writing them, and zeros in front
  change nothing;
* `value?_of_render?` : so a literal is read as its number, whatever its style;
* `isLiteralChar_of_mem_render?` : the characters that a literal can hold.
-/

namespace GlyphTables.Literal

/-! ## Digits -/

/-- The value of a digit of any base up to 16. Letter case does not matter. -/
def digitValue? (c : Char) : Option Nat :=
  if '0' ≤ c ∧ c ≤ '9' then some (c.toNat - '0'.toNat)
  else if 'a' ≤ c ∧ c ≤ 'f' then some (10 + (c.toNat - 'a'.toNat))
  else if 'A' ≤ c ∧ c ≤ 'F' then some (10 + (c.toNat - 'A'.toNat))
  else none

/-- The value of `c`, if it is a digit in `base`. -/
def digit? (base : Nat) (c : Char) : Option Nat :=
  (digitValue? c).filter (· < base)

/-- The number that starts with the digits of `n` and goes on with `digits`. -/
def readOn? (base n : Nat) (digits : List Char) : Option Nat :=
  digits.foldlM (fun n c => (digit? base c).map (base * n + ·)) n

/-- The number that has the digits `digits`; there must be some. -/
def natural? (base : Nat) (digits : List Char) : Option Nat :=
  if digits.isEmpty then none else readOn? base 0 digits

theorem digitValue?_digitChar : ∀ d < 16, digitValue? (Nat.digitChar d) = some d := by
  decide

section Base

variable {base : Nat}

theorem digit?_digitChar (small : base ≤ 16) {d : Nat} (lt : d < base) :
    digit? base (Nat.digitChar d) = some d := by
  rw [digit?, digitValue?_digitChar d (by omega)]
  simp [lt]

/-- Digits are read from left to right, and the number so far is all that is kept of them. -/
theorem readOn?_append (n : Nat) (front back : List Char) :
    readOn? base n (front ++ back) = (readOn? base n front).bind (readOn? base · back) := by
  simp [readOn?, List.foldlM_append]

theorem readOn?_digitChar (small : base ≤ 16) {d : Nat} (lt : d < base) (n : Nat) :
    readOn? base n [Nat.digitChar d] = some (base * n + d) := by
  simp [readOn?, digit?_digitChar small lt]

/-- The digits of a number read as the number. -/
theorem readOn?_toDigits (large : 1 < base) (small : base ≤ 16) (n : Nat) :
    readOn? base 0 (Nat.toDigits base n) = some n := by
  induction n using Nat.strong_induction_on with
  | _ n ih =>
    rw [Nat.toDigits_eq_if large]
    split
    · rename_i lt
      rw [readOn?_digitChar small lt, Nat.mul_zero, Nat.zero_add]
    · -- the digits of the quotient come first, then one more
      rename_i ge
      have shorter : n / base < n := Nat.div_lt_self (by omega) large
      have last : n % base < base := Nat.mod_lt n (by omega)
      rw [readOn?_append, ih _ shorter, Option.bind_some, readOn?_digitChar small last,
        Nat.div_add_mod]

theorem readOn?_zeros (large : 1 < base) (small : base ≤ 16) (k : Nat) :
    readOn? base 0 (List.replicate k '0') = some 0 := by
  induction k with
  | zero => rfl
  | succ k ih =>
    have zero : readOn? base 0 [Nat.digitChar 0] = some 0 := readOn?_digitChar small (by omega) 0
    rw [Nat.digitChar_eq_zero.2 rfl] at zero
    rw [List.replicate_succ, ← List.singleton_append, readOn?_append, zero, Option.bind_some, ih]

/-- Zeros before the digits of a number change nothing. -/
theorem natural?_leftpad (large : 1 < base) (small : base ≤ 16) (k n : Nat) :
    natural? base ((Nat.toDigits base n).leftpad k '0') = some n := by
  have filled : ((Nat.toDigits base n).leftpad k '0').isEmpty = false := by
    simp [List.leftpad]
  rw [natural?, filled, List.leftpad, readOn?_append, readOn?_zeros large small, Option.bind_some,
    readOn?_toDigits large small]
  rfl

theorem natural?_toDigits (large : 1 < base) (small : base ≤ 16) (n : Nat) :
    natural? base (Nat.toDigits base n) = some n := by
  simpa [List.leftpad] using natural?_leftpad large small 0 n

theorem exists_digitChar_of_mem_toDigits (large : 1 < base) {n : Nat} {c : Char}
    (mem : c ∈ Nat.toDigits base n) : ∃ d < base, Nat.digitChar d = c := by
  induction n using Nat.strong_induction_on with
  | _ n ih =>
    rw [Nat.toDigits_eq_if large] at mem
    split at mem
    · rename_i lt
      exact ⟨n, lt, (List.mem_singleton.1 mem).symm⟩
    · rename_i ge
      rcases List.mem_append.1 mem with mem | mem
      · exact ih _ (Nat.div_lt_self (by omega) large) mem
      · exact ⟨n % base, Nat.mod_lt n (by omega), (List.mem_singleton.1 mem).symm⟩

end Base

/-! ## Numbers -/

/-- The natural number of a literal without its sign. -/
def magnitude? : List Char → Option Nat
  | '0' :: 'x' :: digits => natural? 16 digits
  | digits => natural? 10 digits

/-- The number of a literal. -/
def value? : List Char → Option Int
  | '-' :: literal => (magnitude? literal).map fun n : Nat => -(n : Int)
  | literal => (magnitude? literal).map fun n : Nat => (n : Int)

/-- No `0x` is read into the digits of a decimal number. -/
theorem magnitude?_toDigits (n : Nat) : magnitude? (Nat.toDigits 10 n) = some n := by
  unfold magnitude?
  split
  · rename_i rest digits
    have letter : 'x' ∈ Nat.toDigits 10 n := by simp [digits]
    exact absurd (Nat.isDigit_of_mem_toDigits (by decide) (by decide) letter) (by decide)
  · exact natural?_toDigits (by decide) (by decide) n

/-- A sign before the digits is read as the sign of the value. -/
theorem value?_sign_append {literal : List Char} {value : Int} (unsigned : '-' ∉ literal.head?)
    (read : magnitude? literal = some value.natAbs) :
    value? (sign value ++ literal) = some value := by
  unfold sign
  split
  · rename_i negative
    have magnitude : -(value.natAbs : Int) = value := by omega
    rw [List.singleton_append, value?.eq_1, read, Option.map_some, magnitude]
  · rename_i positive
    have magnitude : (value.natAbs : Int) = value := by omega
    rw [List.nil_append, value?.eq_2]
    · rw [read, Option.map_some, magnitude]
    · rintro rest rfl
      simp at unsigned

theorem value?_inDecimal (value : Int) : value? (inDecimal value).toList = some value := by
  rw [inDecimal, String.toList_ofList]
  refine value?_sign_append ?_ (magnitude?_toDigits _)
  intro first
  have minus : '-' ∈ Nat.toDigits 10 value.natAbs := List.mem_of_mem_head? first
  exact absurd (Nat.isDigit_of_mem_toDigits (by decide) (by decide) minus) (by decide)

theorem value?_inHexadecimal (digits : Nat) (value : Int) :
    value? (inHexadecimal digits value).toList = some value := by
  rw [inHexadecimal, String.toList_ofList, List.append_assoc]
  refine value?_sign_append (by simp) ?_
  exact natural?_leftpad (by decide) (by decide) digits value.natAbs

/-- **A literal is read as the number it was written for.** -/
theorem value?_of_render? {style : Style} {value : Int} {literal : String}
    (written : style.render? value = some literal) : value? literal.toList = some value := by
  cases style with
  | decimal =>
    obtain rfl := Option.some.inj written
    exact value?_inDecimal value
  | hexadecimal digits =>
    simp only [Style.render?, Option.ite_none_right_eq_some, Option.some.injEq] at written
    obtain ⟨-, rfl⟩ := written
    exact value?_inHexadecimal digits value

/-! ## Characters -/

def isLiteralChar (c : Char) : Bool :=
  c.isAlphanum || c == '-'

theorem isLiteralChar_of_mem_toDigits {base n : Nat} (large : 1 < base) (small : base ≤ 16)
    {c : Char} (mem : c ∈ Nat.toDigits base n) : isLiteralChar c = true := by
  have all : ∀ d < 16, isLiteralChar (Nat.digitChar d) = true := by decide
  obtain ⟨d, lt, rfl⟩ := exists_digitChar_of_mem_toDigits large mem
  exact all d (by omega)

theorem isLiteralChar_of_mem_sign {value : Int} {c : Char} (mem : c ∈ sign value) :
    isLiteralChar c = true := by
  unfold sign at mem
  split at mem
  · rw [List.mem_singleton.1 mem]
    decide
  · cases mem

/-- A literal holds no other characters, whatever its style. -/
theorem isLiteralChar_of_mem_render? {style : Style} {value : Int} {literal : String}
    (written : style.render? value = some literal) {c : Char} (mem : c ∈ literal.toList) :
    isLiteralChar c = true := by
  cases style with
  | decimal =>
    obtain rfl := Option.some.inj written
    rw [inDecimal, String.toList_ofList, List.mem_append] at mem
    rcases mem with mem | mem
    · exact isLiteralChar_of_mem_sign mem
    · exact isLiteralChar_of_mem_toDigits (by decide) (by decide) mem
  | hexadecimal digits =>
    simp only [Style.render?, Option.ite_none_right_eq_some, Option.some.injEq] at written
    obtain ⟨-, rfl⟩ := written
    rw [inHexadecimal, String.toList_ofList, List.leftpad, List.mem_append, List.mem_append,
      List.mem_append] at mem
    rcases mem with (mem | mem) | mem | mem
    · exact isLiteralChar_of_mem_sign mem
    · simp only [List.mem_cons, List.not_mem_nil, or_false] at mem
      rcases mem with rfl | rfl <;> decide
    · rw [List.eq_of_mem_replicate mem]
      decide
    · exact isLiteralChar_of_mem_toDigits (by decide) (by decide) mem

end GlyphTables.Literal
