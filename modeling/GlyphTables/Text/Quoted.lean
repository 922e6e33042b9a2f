import GlyphTables.Text.CharacterSets

/-!
# Quoted text

Names are shown between double quotes. A character that would not be seen, or would be drawn on
its neighbour, is shown by its number.
-/

namespace GlyphTables.Text

/-- Letters that hold the place of a missing one and are not drawn. -/
def isHangulFiller (c : Char) : Bool :=
  c == '\u115f' || c == '\u1160' || c == '\u3164' || c == '\uffa0'

/-- Sound marks that have a width of their own although they extend a grapheme. -/
def isHalfwidthMark (c : Char) : Bool :=
  c == '\uff9e' || c == '\uff9f'

/-- Whether a character is hard to tell by its look. -/
def isObscure (c : Char) : Bool :=
  (isGraphemeExtend c && !isHalfwidthMark c) || isUnprintable c || isHangulFiller c

/-- A character by its number in hexadecimal. -/
def showByNumber (c : Char) : List Char :=
  ['\\', 'u', '{'] ++ Nat.toDigits 16 c.toNat ++ ['}']

/-- A character as it stands between double quotes. -/
def quoteChar (c : Char) : List Char :=
  match c with
  | '\x00' => ['\\', '0']
  | '\t' => ['\\', 't']
  | '\r' => ['\\', 'r']
  | '\n' => ['\\', 'n']
  | '"' => ['\\', '"']
  | '\\' => ['\\', '\\']
  | c => if isObscure c then showByNumber c else [c]

def quoteChars (text : List Char) : List Char :=
  text.flatMap quoteChar

def quote (text : String) : String :=
  String.ofList (['"'] ++ quoteChars text.toList ++ ['"'])

end GlyphTables.Text
