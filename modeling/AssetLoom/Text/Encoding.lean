import AssetLoom.Text.Offset
/-!
# UTF-8 with replacement

`encode` writes a text in UTF-8. `decode` reads any bytes: what is no character becomes U+FFFD,
one for each longest piece that could have begun a character.
-/

namespace AssetLoom.Text

/-- The UTF-8 form of a text. -/
def encode (t : Text) : ByteArray :=
  (String.ofList t).toUTF8

/-- The bytes that may follow `lead` in a character of more than one byte. -/
def secondByteRange? (lead : UInt8) : Option (UInt8 × UInt8) :=
  if 0xC2 ≤ lead && lead ≤ 0xDF then some (0x80, 0xBF)
  else if lead == 0xE0 then some (0xA0, 0xBF)
  else if lead == 0xED then some (0x80, 0x9F)
  else if 0xE1 ≤ lead && lead ≤ 0xEF then some (0x80, 0xBF)
  else if lead == 0xF0 then some (0x90, 0xBF)
  else if 0xF1 ≤ lead && lead ≤ 0xF3 then some (0x80, 0xBF)
  else if lead == 0xF4 then some (0x80, 0x8F)
  else none

/-- Whether there is a byte at `i` and it lies between `low` and `high`. -/
def byteWithin (bytes : ByteArray) (i : Nat) (low high : UInt8) : Bool :=
  match bytes[i]? with
  | some b => low ≤ b && b ≤ high
  | none => false

/-- How many bytes from `i` on belong to one broken character. -/
def brokenLength (bytes : ByteArray) (i : Nat) : Nat :=
  match bytes[i]?.bind fun lead => (secondByteRange? lead).map (lead, ·) with
  | none => 1
  | some (lead, low, high) =>
    if !byteWithin bytes (i + 1) low high then 1
    else if lead ≥ 0xF0 && byteWithin bytes (i + 2) 0x80 0xBF then 3
    else 2

theorem brokenLength_pos (bytes : ByteArray) (i : Nat) : 0 < brokenLength bytes i := by
  unfold brokenLength
  repeat' split
  all_goals omega

/-- The text of the bytes from `i` on. -/
def decodeFrom (bytes : ByteArray) (i : Nat) : Text :=
  if i < bytes.size then
    match bytes.utf8DecodeChar? i with
    | some c => c :: decodeFrom bytes (i + c.utf8Size)
    | none => '\uFFFD' :: decodeFrom bytes (i + brokenLength bytes i)
  else []
termination_by bytes.size - i
decreasing_by
  · have := c.utf8Size_pos; omega
  · have := brokenLength_pos bytes i; omega

/-- The text of some bytes. -/
def decode (bytes : ByteArray) : Text :=
  decodeFrom bytes 0

end AssetLoom.Text
