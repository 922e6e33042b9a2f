/-!
# UTF-8

* `decode?_eq_some_iff` : decoding accepts exactly what encoding produces.

A byte string that is not UTF-8 is shown with U+FFFD in place of each piece that fits no
character: a piece is a byte that starts no character, or the longest beginning of a character that
the next byte does not continue.
-/

namespace GlyphTables.Utf8

/-- The bytes of a text. -/
def encode (text : String) : List UInt8 :=
  text.toList.flatMap String.utf8EncodeChar

def decode? (bytes : List UInt8) : Option String :=
  String.fromUTF8? bytes.toByteArray

theorem encode_append (s t : String) : encode (s ++ t) = encode s ++ encode t := by
  simp [encode]

/-- The bytes are those by which a string is stored. -/
theorem toByteArray_encode (text : String) : (encode text).toByteArray = text.toByteArray := by
  have h := String.toByteArray_ofList (l := text.toList)
  rw [String.ofList_toList] at h
  exact h.symm

theorem length_encode (text : String) : (encode text).length = text.utf8ByteSize := by
  rw [← String.size_toByteArray, ← toByteArray_encode, List.size_toByteArray]

theorem toByteArray_injective {a b : List UInt8} (h : a.toByteArray = b.toByteArray) : a = b := by
  have := congrArg ByteArray.data h
  simpa using this

/-- Decoding accepts exactly what encoding produces. -/
theorem decode?_eq_some_iff {bytes : List UInt8} {text : String} :
    decode? bytes = some text ↔ encode text = bytes := by
  unfold decode? String.fromUTF8?
  constructor
  · intro h
    split at h
    · have h := Option.some.inj h
      apply toByteArray_injective
      rw [toByteArray_encode, ← h]
      rfl
    · cases h
  · rintro rfl
    rw [dif_pos (by rw [toByteArray_encode]; exact text.isValidUTF8)]
    exact congrArg some (String.toByteArray_inj.1 (toByteArray_encode text))

/-! ## Bytes that need not be UTF-8 -/

/-- The ranges of the bytes that follow `lead` in a character, if a character starts with it. -/
def followers? (lead : UInt8) : Option (List (UInt8 × UInt8)) :=
  if lead < 0x80 then some []
  else if lead < 0xc2 then none
  else if lead < 0xe0 then some [(0x80, 0xbf)]
  else if lead = 0xe0 then some [(0xa0, 0xbf), (0x80, 0xbf)]
  else if lead = 0xed then some [(0x80, 0x9f), (0x80, 0xbf)]
  else if lead < 0xf0 then some [(0x80, 0xbf), (0x80, 0xbf)]
  else if lead = 0xf0 then some [(0x90, 0xbf), (0x80, 0xbf), (0x80, 0xbf)]
  else if lead < 0xf4 then some [(0x80, 0xbf), (0x80, 0xbf), (0x80, 0xbf)]
  else if lead = 0xf4 then some [(0x80, 0x8f), (0x80, 0xbf), (0x80, 0xbf)]
  else none

/-- The longest beginning of `bytes` whose members lie one by one in `ranges`. -/
def takeInRanges : List (UInt8 × UInt8) → List UInt8 → List UInt8
  | (low, high) :: ranges, byte :: bytes =>
    if low ≤ byte && byte ≤ high then byte :: takeInRanges ranges bytes else []
  | _, _ => []

/-- The character made of `lead` and the bytes after it. -/
def assemble (lead : UInt8) (following : List UInt8) : Char :=
  if following.isEmpty then Char.ofNat lead.toNat
  else Char.ofNat
    (following.foldl (fun code byte => code * 64 + byte.toNat % 64)
      (lead.toNat % (64 >>> following.length)))

/-- The pieces of a byte string, each a character or `none`. -/
def pieces : List UInt8 → List (Option Char)
  | [] => []
  | lead :: rest =>
    match followers? lead with
    | none => none :: pieces rest
    | some ranges =>
      let following := takeInRanges ranges rest
      let piece :=
        if following.length = ranges.length then some (assemble lead following) else none
      piece :: pieces (rest.drop following.length)
termination_by bytes => bytes.length
decreasing_by all_goals simp_wf; try omega

/-- What is shown for a piece that fits no character. -/
def replacement : Char := '\ufffd'

/-- Bytes as a text to be shown, whatever they are. -/
def decodeLossy (bytes : List UInt8) : String :=
  String.ofList ((pieces bytes).map fun piece => piece.getD replacement)

end GlyphTables.Utf8
