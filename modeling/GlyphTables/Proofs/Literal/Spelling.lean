import GlyphTables.Proofs.Literal

/-!
# Spelling literals

What a literal of a number looks like, said without writing one: a minus sign for negative numbers
only, the mark of the base, and digits without capitals whose value is the magnitude. In decimal no
zero stands in front that could go; in hexadecimal there are as many digits as the style asks for
or as the magnitude has, and at least one. One text alone is like that, and it is what is written.

* `IsNumeral.eq_leftpad` : digits of the same value differ in the zeros in front of them only;
* `length_toDigits`      : all significant digits are written, and one digit for zero;
* `renderWord?_eq`       : 64 bits are enough to find the literal of a 64-bit number;
* `spells_iff_rendered`  : a text spells a number exactly if it is the literal of the number.
-/

namespace GlyphTables.Literal

/-! ## Numerals -/

/-- The digits that literals are written with. -/
def digitChars : List Char :=
  ['0', '1', '2', '3', '4', '5', '6', '7', '8', '9', 'a', 'b', 'c', 'd', 'e', 'f']

/-- Digits without capitals that have the value `n` in `base`, with any zeros in front. -/
structure IsNumeral (base n : Nat) (digits : List Char) : Prop where
  lowercase : ∀ c ∈ digits, c ∈ digitChars
  value : natural? base digits = some n

/-- No zero stands in front that could go. -/
def Trimmed (digits : List Char) : Prop :=
  digits.head? = some '0' → digits = ['0']

theorem mem_digitChars_iff {c : Char} : c ∈ digitChars ↔ ∃ d < 16, Nat.digitChar d = c := by
  have all : digitChars = (List.range 16).map Nat.digitChar := by decide
  simp [all]

theorem leftpad_concat (k : Nat) (digits : List Char) (c : Char) :
    (digits ++ [c]).leftpad (k + 1) '0' = digits.leftpad k '0' ++ [c] := by
  simp [List.leftpad]

theorem leftpad_max_length (k : Nat) (digits : List Char) :
    digits.leftpad (max k digits.length) '0' = digits.leftpad k '0' := by
  have missing : max k digits.length - digits.length = k - digits.length := by omega
  rw [List.leftpad, missing, List.leftpad]

section Base

variable {base n : Nat} {digits : List Char}

theorem digit?_eq_some_iff (small : base ≤ 16) {c : Char} (lowercase : c ∈ digitChars) {d : Nat} :
    digit? base c = some d ↔ d < base ∧ Nat.digitChar d = c := by
  obtain ⟨e, lt, rfl⟩ := mem_digitChars_iff.1 lowercase
  constructor
  · intro read
    rw [digit?, digitValue?_digitChar e lt, Option.filter_eq_some_iff] at read
    obtain ⟨same, below⟩ := read
    obtain rfl := Option.some.inj same
    exact ⟨of_decide_eq_true below, rfl⟩
  · rintro ⟨below, same⟩
    rw [← same]
    exact digit?_digitChar small below

theorem readOn?_concat_eq_some_iff {start : Nat} {c : Char} :
    readOn? base start (digits ++ [c]) = some n ↔
      ∃ front last, readOn? base start digits = some front ∧ digit? base c = some last ∧
        base * front + last = n := by
  rw [readOn?_append]
  simp [Option.bind_eq_some_iff, readOn?]

/-- A digit more behind a padded number. -/
theorem leftpad_toDigits_concat (large : 1 < base) {d : Nat} (lt : d < base) (n : Nat) {k : Nat}
    (pos : 0 < k) :
    (Nat.toDigits base (base * n + d)).leftpad (k + 1) '0' =
      (Nat.toDigits base n).leftpad k '0' ++ [Nat.digitChar d] := by
  rcases Nat.eq_zero_or_pos n with rfl | positive
  · -- the digit of zero is no digit of the new number: it turns into one more zero in front
    have zeros : List.replicate (k - 1) '0' ++ ['0'] = List.replicate k '0' := by
      rw [← List.replicate_succ', Nat.sub_add_cancel pos]
    rw [Nat.mul_zero, Nat.zero_add, Nat.toDigits_of_lt_base lt, Nat.toDigits_zero, List.leftpad,
      List.leftpad, List.length_singleton, List.length_singleton, Nat.add_sub_cancel, zeros]
  · rw [← Nat.toDigits_append_toDigits large positive lt, Nat.toDigits_of_lt_base lt,
      leftpad_concat]

/-- Digits of a value are its shortest digits up to leading zeros. -/
theorem eq_leftpad_of_readOn? (large : 1 < base) (small : base ≤ 16) (nonempty : digits ≠ [])
    (lowercase : ∀ c ∈ digits, c ∈ digitChars) (read : readOn? base 0 digits = some n) :
    digits = (Nat.toDigits base n).leftpad digits.length '0' := by
  induction digits using List.reverseRecOn generalizing n with
  | nil => exact absurd rfl nonempty
  | append_singleton front c ih =>
    have front_lowercase : ∀ c ∈ front, c ∈ digitChars :=
      fun c mem => lowercase c (List.mem_append_left _ mem)
    obtain ⟨m, d, readFront, last, rfl⟩ := readOn?_concat_eq_some_iff.1 read
    obtain ⟨lt, rfl⟩ := (digit?_eq_some_iff small (lowercase c (by simp))).1 last
    rcases eq_or_ne front [] with rfl | more
    · obtain rfl : 0 = m := Option.some.inj readFront
      rw [Nat.mul_zero, Nat.zero_add, Nat.toDigits_of_lt_base lt]
      rfl
    · rw [List.length_append, List.length_singleton,
        leftpad_toDigits_concat large lt m (List.length_pos_iff.2 more),
        ← ih more front_lowercase readFront]

theorem IsNumeral.ne_nil (h : IsNumeral base n digits) : digits ≠ [] := by
  rintro rfl
  exact absurd h.value (by simp [natural?])

/-- The value and the number of the digits determine the digits. -/
theorem IsNumeral.eq_leftpad (h : IsNumeral base n digits) (large : 1 < base)
    (small : base ≤ 16) : digits = (Nat.toDigits base n).leftpad digits.length '0' := by
  have filled : digits.isEmpty = false := List.isEmpty_eq_false_iff.2 h.ne_nil
  have read := h.value
  rw [natural?, filled] at read
  exact eq_leftpad_of_readOn? large small h.ne_nil h.lowercase read

theorem isNumeral_leftpad (large : 1 < base) (small : base ≤ 16) (n k : Nat) :
    IsNumeral base n ((Nat.toDigits base n).leftpad k '0') where
  value := natural?_leftpad large small k n
  lowercase c mem := by
    rcases List.mem_append.1 mem with mem | mem
    · rw [List.eq_of_mem_replicate mem]
      decide
    · obtain ⟨d, lt, same⟩ := exists_digitChar_of_mem_toDigits large mem
      exact mem_digitChars_iff.2 ⟨d, by omega, same⟩

theorem isNumeral_toDigits (large : 1 < base) (small : base ≤ 16) (n : Nat) :
    IsNumeral base n (Nat.toDigits base n) := by
  simpa [List.leftpad] using isNumeral_leftpad large small n 0

/-! ## The number of digits -/

/-- Zero has no significant digit, but it is written with one. -/
theorem length_toDigits (large : 1 < base) (n : Nat) :
    (Nat.toDigits base n).length = max (Nat.digits base n).length 1 := by
  refine eq_of_forall_ge_iff fun k => ?_
  rcases Nat.eq_zero_or_pos k with rfl | pos
  · simp
  · rw [max_le_iff, Nat.length_toDigits_le_iff large pos, Nat.digits_length_le_iff large]
    exact (and_iff_left pos).symm

theorem eq_zero_of_head?_toDigits (large : 1 < base)
    (zero : (Nat.toDigits base n).head? = some '0') : n = 0 := by
  induction n using Nat.strong_induction_on with
  | _ n ih =>
    rw [Nat.toDigits_eq_if large] at zero
    split at zero
    · exact Nat.digitChar_eq_zero.1 (Option.some.inj zero)
    · -- the first digit is that of the quotient, which is not zero
      rename_i ge
      rw [List.head?_append_of_ne_nil _ Nat.toDigits_ne_nil] at zero
      have quotient := ih (n / base) (Nat.div_lt_self (by omega) large) zero
      have below := (Nat.div_eq_zero_iff_lt (by omega)).1 quotient
      exact absurd below ge

theorem trimmed_toDigits (large : 1 < base) (n : Nat) : Trimmed (Nat.toDigits base n) := by
  intro zero
  obtain rfl := eq_zero_of_head?_toDigits large zero
  exact Nat.toDigits_zero base

/-- A value has one numeral without leading zeros. -/
theorem IsNumeral.eq_toDigits (h : IsNumeral base n digits) (large : 1 < base)
    (small : base ≤ 16) (trimmed : Trimmed digits) : digits = Nat.toDigits base n := by
  have padded := h.eq_leftpad large small
  rw [List.leftpad] at padded
  cases missing : digits.length - (Nat.toDigits base n).length with
  | zero =>
    rw [missing] at padded
    exact padded
  | succ k =>
    -- a zero in front is all there is, and then it does not pad anything
    have zero : digits.head? = some '0' := by
      rw [padded, missing]
      rfl
    have single : digits.length = 1 := congrArg List.length (trimmed zero)
    have some_digit : 0 < (Nat.toDigits base n).length := Nat.length_toDigits_pos
    omega

end Base

/-! ## Literals -/

/-- The texts that write a number the way a style asks for. -/
inductive Style.Spells : Style → Int → String → Prop where
  | decimal {value : Int} {digits : List Char} (numeral : IsNumeral 10 value.natAbs digits)
      (trimmed : Trimmed digits) :
      Spells .decimal value ((if value < 0 then "-" else "") ++ String.ofList digits)
  | hexadecimal {width : Nat} {value : Int} {digits : List Char}
      (numeral : IsNumeral 16 value.natAbs digits)
      (length : digits.length = max (max width (Nat.digits 16 value.natAbs).length) 1) :
      Spells (.hexadecimal width) value
        ((if value < 0 then "-0x" else "0x") ++ String.ofList digits)

theorem inDecimal_eq (value : Int) :
    inDecimal value =
      (if value < 0 then "-" else "") ++ String.ofList (Nat.toDigits 10 value.natAbs) := by
  rw [inDecimal, String.ofList_append, sign]
  split <;> rfl

theorem inHexadecimal_eq (width : Nat) (value : Int) :
    inHexadecimal width value =
      (if value < 0 then "-0x" else "0x") ++
        String.ofList ((Nat.toDigits 16 value.natAbs).leftpad width '0') := by
  rw [inHexadecimal, String.ofList_append, sign]
  split <;> rfl

theorem spells_decimal_iff {value : Int} {text : String} :
    Style.decimal.Spells value text ↔ text = inDecimal value := by
  rw [inDecimal_eq]
  constructor
  · intro spelled
    cases spelled with
    | decimal numeral trimmed =>
      rw [numeral.eq_toDigits (by decide) (by decide) trimmed]
  · rintro rfl
    exact .decimal (isNumeral_toDigits (by decide) (by decide) _) (trimmed_toDigits (by decide) _)

theorem spells_hexadecimal_iff {width : Nat} {value : Int} {text : String} :
    (Style.hexadecimal width).Spells value text ↔ text = inHexadecimal width value := by
  have count : max (max width (Nat.digits 16 value.natAbs).length) 1 =
      max width (Nat.toDigits 16 value.natAbs).length := by
    rw [length_toDigits (by decide), max_assoc]
  rw [inHexadecimal_eq]
  constructor
  · intro spelled
    cases spelled with
    | hexadecimal numeral length =>
      rw [numeral.eq_leftpad (by decide) (by decide), length, count, leftpad_max_length]
  · rintro rfl
    refine .hexadecimal (isNumeral_leftpad (by decide) (by decide) _ _) ?_
    rw [List.length_leftpad, count]

example : inHexadecimal 0 0 = "0x0" := by decide

/-- In a style that is not too wide, a value is spelled in one way, which is what is rendered. -/
theorem exists_rendered {style : Style} (narrow : style.tooWide = false) (value : Int) :
    ∃ literal, style.render? value = some literal ∧
      ∀ text, style.Spells value text ↔ text = literal := by
  cases style with
  | decimal => exact ⟨inDecimal value, rfl, fun _ => spells_decimal_iff⟩
  | hexadecimal width =>
    have fits : width ≤ maxDigits := not_lt.1 (of_decide_eq_false narrow)
    exact ⟨inHexadecimal width value, if_pos fits, fun _ => spells_hexadecimal_iff⟩

/-- Values can be told apart by their literals. -/
theorem render?_injective {style : Style} (narrow : style.tooWide = false) :
    Function.Injective style.render? := by
  intro a b same
  obtain ⟨literal, rendered, -⟩ := exists_rendered narrow a
  have first := value?_of_render? rendered
  have second := value?_of_render? (same ▸ rendered)
  exact Option.some.inj (first.symm.trans second)

/-! ## Words -/

/-- The magnitude of a word. The absolute value of the least word wraps; without a sign it is right
all the same. -/
def magnitude (word : Int64) : UInt64 :=
  word.abs.toUInt64

/-- The literal of a 64-bit number, computed in 64 bits. -/
def Style.renderWord? : Style → Int64 → Option String
  | .decimal, word =>
    some ((if word < 0 then "-" else "") ++ String.ofList (Nat.toDigits 10 (magnitude word).toNat))
  | .hexadecimal width, word =>
    if width ≤ maxDigits then
      some ((if word < 0 then "-0x" else "0x") ++
        String.ofList ((Nat.toDigits 16 (magnitude word).toNat).leftpad width '0'))
    else none

theorem toNat_magnitude (word : Int64) : (magnitude word).toNat = word.toInt.natAbs := by
  rw [magnitude, ← Int64.toNat_toBitVec, Int64.toBitVec_abs, BitVec.toNat_abs,
    ← Int64.toInt_toBitVec, BitVec.toInt_eq_msb_cond]
  have bound := word.toBitVec.isLt
  split <;> omega

theorem renderWord?_eq (style : Style) (word : Int64) :
    style.renderWord? word = style.render? word.toInt := by
  have negative : word < 0 ↔ word.toInt < 0 := Int64.lt_iff_toInt_lt
  cases style with
  | decimal =>
    simp only [Style.renderWord?, Style.render?, inDecimal_eq, toNat_magnitude, negative]
  | hexadecimal width =>
    simp only [Style.renderWord?, Style.render?, inHexadecimal_eq, toNat_magnitude, negative]

/-! ## The literal of a number -/

/-- **In each style a number is spelled by one text alone, and that is its literal.** No two numbers
have the same one, and for a 64-bit number 64 bits are enough to find it. -/
theorem spells_iff_rendered (style : Style) (narrow : style.tooWide = false) :
    (∀ value, ∃ literal, style.render? value = some literal ∧
        value? literal.toList = some value ∧
        ∀ text, style.Spells value text ↔ text = literal) ∧
      Function.Injective style.render? ∧
      ∀ word, style.renderWord? word = style.render? word.toInt := by
  refine ⟨fun value => ?_, render?_injective narrow, renderWord?_eq style⟩
  obtain ⟨literal, rendered, only⟩ := exists_rendered narrow value
  exact ⟨literal, rendered, value?_of_render? rendered, only⟩

/-- The least 64-bit number, whose magnitude is no signed word. -/
theorem spells_iff_rendered_leastWord :
    (Style.hexadecimal 20).tooWide = false ∧
      (Style.hexadecimal 20).renderWord? Int64.minValue = some "-0x00008000000000000000" ∧
      ∀ text, (Style.hexadecimal 20).Spells (-2 ^ 63) text ↔ text = "-0x00008000000000000000" := by
  have narrow : (Style.hexadecimal 20).tooWide = false := by decide
  have known : (Style.hexadecimal 20).render? (-2 ^ 63) = some "-0x00008000000000000000" := by
    decide
  obtain ⟨spelled, -, words⟩ := spells_iff_rendered _ narrow
  obtain ⟨literal, rendered, -, only⟩ := spelled (-2 ^ 63)
  obtain rfl := Option.some.inj (rendered.symm.trans known)
  exact ⟨narrow, (words Int64.minValue).trans known, only⟩

end GlyphTables.Literal
