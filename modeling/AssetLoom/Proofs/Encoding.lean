import AssetLoom.Text.Encoding

/-!
# Texts written and read again

What `Text.encode` writes, `Text.decode` reads back as the same text.
-/

namespace AssetLoom.Text

theorem encode_eq_utf8Encode (t : Text) : encode t = t.utf8Encode :=
  String.toByteArray_ofList

theorem size_utf8Encode (t : Text) : t.utf8Encode.size = byteLength t := by
  induction t with
  | nil => simp
  | cons c t ih =>
    rw [List.utf8Encode_cons, ByteArray.size_append, ih, List.utf8Encode_singleton]
    simp

/-- Reading at the end of a part that has been written goes on with the rest. -/
theorem decodeFrom_utf8Encode_append (s t : Text) :
    decodeFrom (s ++ t).utf8Encode (byteLength s) = t := by
  induction t generalizing s with
  | nil =>
    rw [decodeFrom, if_neg]
    simp [size_utf8Encode]
  | cons c t ih =>
    have hChar : (s ++ c :: t).utf8Encode.utf8DecodeChar? (byteLength s) = some c := by
      rw [ByteArray.utf8DecodeChar?_eq_utf8DecodeChar?_extract, List.utf8Encode_append,
        ← size_utf8Encode, ByteArray.extract_append_eq_right rfl (by simp),
        List.utf8DecodeChar?_utf8Encode_cons]
    have hLess : byteLength s < (s ++ c :: t).utf8Encode.size := by
      have := c.utf8Size_pos
      simp [size_utf8Encode]
      omega
    rw [decodeFrom, if_pos hLess, hChar]
    simp only
    have hNext := ih (s ++ [c])
    simp only [List.append_assoc, List.singleton_append, byteLength_append, byteLength_cons,
      byteLength_nil, Nat.add_zero] at hNext
    rw [hNext]

/-- A text that is written is read back. -/
@[simp]
theorem decode_encode (t : Text) : decode (encode t) = t := by
  rw [encode_eq_utf8Encode]
  exact decodeFrom_utf8Encode_append [] t

end AssetLoom.Text
