/-!
# Number literals

A number is written in decimal, or in hexadecimal with a least number of digits. The sign and the
`0x` do not count as digits, and no digit is ever cut off.

* `render?_eq_none_iff` : a number has no literal exactly if its style asks for more than
  `maxDigits` digits.
-/

namespace GlyphTables.Literal

/-- How a number is written. -/
inductive Style where
  | decimal
  | hexadecimal (digits : Nat)
  deriving DecidableEq

/-- The usual style of a byte. -/
def Style.byte : Style := .hexadecimal 2

/-- No literal is padded to more digits than this. -/
def maxDigits : Nat := 65535

/-- The sign of a literal, which only negative numbers have. -/
def sign (value : Int) : List Char :=
  if value < 0 then ['-'] else []

/-- A natural number in decimal, as it stands in the bounds of arrays. -/
def natural (n : Nat) : String :=
  String.ofList (Nat.toDigits 10 n)

/-- A number in decimal, without superfluous zeros. -/
def inDecimal (value : Int) : String :=
  String.ofList (sign value ++ Nat.toDigits 10 value.natAbs)

/-- A number in hexadecimal with at least `digits` digits; the sign stands before the `0x`. -/
def inHexadecimal (digits : Nat) (value : Int) : String :=
  String.ofList
    (sign value ++ ['0', 'x'] ++ (Nat.toDigits 16 value.natAbs).leftpad digits '0')

/-- The literal of `value`, if its style can be honoured. -/
def Style.render? : Style → Int → Option String
  | .decimal, value => some (inDecimal value)
  | .hexadecimal digits, value =>
    if digits ≤ maxDigits then some (inHexadecimal digits value) else none

/-- The styles that ask for too many digits. -/
def Style.tooWide : Style → Bool
  | .decimal => false
  | .hexadecimal digits => maxDigits < digits

/-- Whether there is a literal hangs on the style alone, not on the number. -/
theorem render?_eq_none_iff (style : Style) (value : Int) :
    style.render? value = none ↔ style.tooWide = true := by
  cases style <;> simp [Style.render?, Style.tooWide]

end GlyphTables.Literal
