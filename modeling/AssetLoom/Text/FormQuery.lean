import AssetLoom.Text.Encoding
/-!
# Query strings of forms

A query is a list of `key=value` pairs separated by `&`. In keys and values `+` stands for a
blank and `%` with two hexadecimal digits for a byte; a `%` without them stands for itself.
-/

namespace AssetLoom.Text

/-- The value of a hexadecimal digit. -/
def hexDigit? (c : Char) : Option Nat :=
  if '0' ≤ c ∧ c ≤ '9' then some (c.toNat - '0'.toNat)
  else if 'a' ≤ c ∧ c ≤ 'f' then some (c.toNat - 'a'.toNat + 10)
  else if 'A' ≤ c ∧ c ≤ 'F' then some (c.toNat - 'A'.toNat + 10)
  else none

namespace FormQuery

/-- The bytes that a key or a value stands for. -/
def unescape : Text → List UInt8
  | [] => []
  | '%' :: a :: b :: rest =>
    match hexDigit? a, hexDigit? b with
    | some high, some low => (16 * high + low).toUInt8 :: unescape rest
    | _, _ => '%'.toUInt8 :: unescape (a :: b :: rest)
  | c :: rest =>
    if c = '+' then ' '.toUInt8 :: unescape rest
    else String.utf8EncodeChar c ++ unescape rest

/-- The text that a key or a value stands for. -/
def unescapeText (t : Text) : Text :=
  decode (unescape t).toByteArray

/-- The keys of a query, in order. Empty pairs count for nothing. -/
def keys (query : Text) : List Text :=
  (query.splitOn '&').filter (· ≠ []) |>.map fun pair => unescapeText (pair.takeWhile (· ≠ '='))

end FormQuery

end AssetLoom.Text
