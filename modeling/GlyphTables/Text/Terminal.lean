/-!
# Text for a terminal

Text that comes from outside may hold control characters and control sequences. They are left out
when the text is shown; line ends, tabs and the like stay.
-/

namespace GlyphTables.Terminal

/-- How far a control sequence has been read. -/
inductive State where
  | ground
  | escape
  /-- After an escape character and a space or punctuation. -/
  | intermediate
  /-- In a sequence that ends with a letter or the like. -/
  | control
  /-- Where a string for the device is announced. -/
  | deviceEntry
  | deviceNumbers
  | deviceIntermediate
  /-- In a string that the string terminator ends. -/
  | string
  /-- In a string that the bell ends. -/
  | titleString
  deriving DecidableEq

/-- The character that opens a control sequence. -/
def escapeChar : Char := '\x1b'

/-- A control character that ends every sequence. -/
def isCancel (c : Char) : Bool :=
  c == '\x18' || c == '\x1a'

/-- Blanks that stay although they are control characters. -/
def isKeptControl (c : Char) : Bool :=
  c == '\t' || c == '\n' || c == '\x0c' || c == '\r'

/-- The characters that do not fit in seven bits are shown in the ground state only. -/
def isShown (state : State) (c : Char) : Bool :=
  match state with
  | .ground => isKeptControl c || (' ' ≤ c && c != '\x7f')
  | .escape | .intermediate | .control => isKeptControl c
  | _ => false

/-! ## Sequences -/

/-- The blank and the punctuation that can stand within a sequence. -/
def isIntermediate (c : Char) : Bool :=
  ' ' ≤ c && c ≤ '/'

def isFinal (c : Char) : Bool :=
  '@' ≤ c && c ≤ '~'

/-- A string ends at the byte of the string terminator, even within a character. -/
def holdsTerminator (c : Char) : Bool :=
  (String.utf8EncodeChar c).contains 0x9c

/-- What an escape character opens, by the character after it. -/
def opened (c : Char) : State :=
  if c = '[' then .control
  else if c = 'P' then .deviceEntry
  else if c = 'X' ∨ c = '^' ∨ c = '_' then .string
  else if c = ']' then .titleString
  else if isIntermediate c then .intermediate
  else if '0' ≤ c ∧ c ≤ '~' then .ground
  else .escape

/-- The state after a character of seven bits that is not shown. -/
def nextShort (state : State) (c : Char) : State :=
  match state with
  | .ground => .ground
  | .escape => opened c
  | .intermediate => if '0' ≤ c ∧ c ≤ '~' then .ground else .intermediate
  | .control => if isFinal c then .ground else .control
  | .deviceEntry =>
    if isFinal c then .string
    else if isIntermediate c then .deviceIntermediate
    else if '0' ≤ c ∧ c ≤ '?' then .deviceNumbers
    else .deviceEntry
  | .deviceNumbers =>
    if '<' ≤ c ∧ c ≤ '~' then .string
    else if isIntermediate c then .deviceIntermediate
    else .deviceNumbers
  | .deviceIntermediate => if '0' ≤ c ∧ c ≤ '~' then .string else .deviceIntermediate
  | .string => .string
  | .titleString => if c = '\x07' then .ground else .titleString

/-- The state after a character that is not shown. -/
def next (state : State) (c : Char) : State :=
  if c = escapeChar then .escape
  else if isCancel c then .ground
  else if c ≤ '\x7f' then nextShort state c
  else if state = .string ∧ holdsTerminator c then .ground
  else state

/-! ## What is shown -/

/-- Where text is shown. After a blank within a sequence, the characters that follow are shown up
to the next control character. -/
inductive Medium where
  /-- The blank has ended the sequence. -/
  | text
  /-- The sequence goes on with that control character. -/
  | stream
  deriving DecidableEq

/-- The sequence that is still open after `c` has been shown. -/
def Medium.resume (medium : Medium) (state : State) (c : Char) : State :=
  match medium with
  | .text => .ground
  | .stream => if c ≤ '\x7f' then state else .ground

/-- The shown characters; `showing` says whether the last character was shown. -/
def shownChars (medium : Medium) (state : State) (showing : Bool) : List Char → List Char
  | [] => []
  | c :: rest =>
    if isShown (if showing then .ground else state) c then
      c :: shownChars medium (medium.resume state c) true rest
    else shownChars medium (next state c) false rest

/-- A text as it is shown. One without any control character is shown as it is. -/
def plain (medium : Medium) (text : String) : String :=
  if text.toList.all (isShown .ground) then text
  else String.ofList (shownChars medium .ground false text.toList)

/-- Text in pieces that differ in style. A change of style ends every sequence. -/
def plainPieces (medium : Medium) (pieces : List String) : String :=
  String.join (pieces.map (plain medium))

end GlyphTables.Terminal
