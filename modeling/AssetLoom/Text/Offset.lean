/-!
# Texts and byte offsets

A text is a list of characters. A position in a text is the number of UTF-8 bytes before it, so
that it names the same place in the text and in its encoding; an offset that falls inside a
character, or beyond the end, names no place.

* `dropBytes?`, `takeBytes?`: the two parts of a text at an offset, `none` off a boundary.
* `slice?`: the part between two offsets, `none` when the offsets are out of order, too.
-/

namespace AssetLoom

/-- A text, as the list of its characters. -/
abbrev Text := List Char

namespace Text

/-- The number of bytes of a text in UTF-8. -/
def byteLength : Text → Nat
  | [] => 0
  | c :: rest => c.utf8Size + byteLength rest

@[simp]
theorem byteLength_nil : byteLength [] = 0 := rfl

@[simp]
theorem byteLength_cons (c : Char) (t : Text) :
    byteLength (c :: t) = c.utf8Size + byteLength t := rfl

@[simp]
theorem byteLength_append (s t : Text) : byteLength (s ++ t) = byteLength s + byteLength t := by
  induction s with
  | nil => simp
  | cons c s ih => simp [ih, Nat.add_assoc]

/-- The text from byte `n` on. -/
def dropBytes? : Nat → Text → Option Text
  | 0, t => some t
  | _ + 1, [] => none
  | n + 1, c :: t => if c.utf8Size ≤ n + 1 then dropBytes? (n + 1 - c.utf8Size) t else none

/-- The first `n` bytes of the text. -/
def takeBytes? : Nat → Text → Option Text
  | 0, _ => some []
  | _ + 1, [] => none
  | n + 1, c :: t =>
    if c.utf8Size ≤ n + 1 then (takeBytes? (n + 1 - c.utf8Size) t).map (c :: ·) else none

/-- The text from byte `start` up to byte `stop`. -/
def slice? (t : Text) (start stop : Nat) : Option Text :=
  if start ≤ stop then (dropBytes? start t).bind (takeBytes? (stop - start)) else none

theorem dropBytes?_byteLength_append (s t : Text) :
    dropBytes? (byteLength s) (s ++ t) = some t := by
  induction s with
  | nil => simp [dropBytes?]
  | cons c s ih =>
    obtain ⟨k, hk⟩ : ∃ k, byteLength (c :: s) = k + 1 :=
      ⟨byteLength (c :: s) - 1, by have := c.utf8Size_pos; simp; omega⟩
    have hc : c.utf8Size ≤ k + 1 := by simp at hk; omega
    have hs : k + 1 - c.utf8Size = byteLength s := by simp at hk; omega
    rw [hk, List.cons_append, dropBytes?, if_pos hc, hs, ih]

theorem takeBytes?_byteLength_append (s t : Text) :
    takeBytes? (byteLength s) (s ++ t) = some s := by
  induction s with
  | nil => simp [takeBytes?]
  | cons c s ih =>
    obtain ⟨k, hk⟩ : ∃ k, byteLength (c :: s) = k + 1 :=
      ⟨byteLength (c :: s) - 1, by have := c.utf8Size_pos; simp; omega⟩
    have hc : c.utf8Size ≤ k + 1 := by simp at hk; omega
    have hs : k + 1 - c.utf8Size = byteLength s := by simp at hk; omega
    rw [hk, List.cons_append, takeBytes?, if_pos hc, hs, ih, Option.map_some]

/-- A part of a text is the slice between the byte lengths before and after it. -/
theorem slice?_append (a b c : Text) :
    slice? (a ++ b ++ c) (byteLength a) (byteLength a + byteLength b) = some b := by
  rw [slice?, if_pos (Nat.le_add_right _ _), List.append_assoc, dropBytes?_byteLength_append,
    Option.bind_some, Nat.add_sub_cancel_left, takeBytes?_byteLength_append]

end Text

end AssetLoom
