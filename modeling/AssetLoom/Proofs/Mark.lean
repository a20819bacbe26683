import AssetLoom.Text.Offset
import Mathlib.Data.List.TakeWhile

/-!
# Texts cut at a mark

A mark is a character that ends what stands in front of it. A text is cut at the first place of a
mark in one way only, and to drop what is not the mark finds this place.
-/

namespace AssetLoom.Text

variable {c : Char}

/-- What is in front of a mark is cut off before it. -/
theorem takeWhile_ne_append_of_head? {front rest : Text} (hFront : c ∉ front)
    (hRest : rest = [] ∨ rest.head? = some c) : (front ++ rest).takeWhile (· ≠ c) = front := by
  rw [List.takeWhile_append_of_pos fun d hd => by simpa using ne_of_mem_of_not_mem hd hFront]
  rcases hRest with rfl | hHead
  · rw [List.takeWhile_nil, List.append_nil]
  · obtain ⟨left, rfl⟩ := List.head?_eq_some_iff.mp hHead
    rw [List.takeWhile_cons_of_neg (by simp), List.append_nil]

theorem takeWhile_ne_append {front : Text} (h : c ∉ front) (left : Text) :
    (front ++ c :: left).takeWhile (· ≠ c) = front :=
  takeWhile_ne_append_of_head? h (.inr rfl)

theorem dropWhile_ne_append {front : Text} (h : c ∉ front) (left : Text) :
    (front ++ c :: left).dropWhile (· ≠ c) = c :: left := by
  rw [List.dropWhile_append_of_pos fun d hd => by simpa using ne_of_mem_of_not_mem hd h,
    List.dropWhile_cons_of_neg (by simp)]

theorem head?_dropWhile_ne (c : Char) (t : Text) :
    t.dropWhile (· ≠ c) = [] ∨ (t.dropWhile (· ≠ c)).head? = some c := by
  have hHead := List.head?_dropWhile_not (· ≠ c) t
  cases hDrop : t.dropWhile (· ≠ c) with
  | nil => exact .inl rfl
  | cons d left =>
    rw [hDrop] at hHead
    simpa using hHead

theorem eq_of_dropWhile_ne_eq_cons {t left : Text} {d : Char}
    (h : t.dropWhile (· ≠ c) = d :: left) : d = c := by
  have hHead := head?_dropWhile_ne c t
  rw [h] at hHead
  simpa using hHead

/-- A text is cut at the first place of a character. -/
theorem eq_of_dropWhile_ne {t left : Text} {d : Char} (h : t.dropWhile (· ≠ c) = d :: left) :
    ∃ front, c ∉ front ∧ t = front ++ c :: left := by
  have hMark := eq_of_dropWhile_ne_eq_cons h
  have hSplit := List.takeWhile_append_dropWhile (p := (· ≠ c)) (l := t)
  rw [h, hMark] at hSplit
  refine ⟨t.takeWhile (· ≠ c), fun hMem => ?_, hSplit.symm⟩
  have := List.all_eq_true.mp List.all_takeWhile _ hMem
  simp at this

/-- A character that is not in the front of a text is behind it. -/
theorem append_eq_append_cons {front rest x y : Text} (hFront : c ∉ front)
    (h : front ++ rest = x ++ c :: y) : ∃ z, x = front ++ z ∧ rest = z ++ c :: y := by
  rcases List.append_eq_append_iff.mp h with ⟨z, hx, hRest⟩ | ⟨z, hSplit, hRest⟩
  · exact ⟨z, hx, hRest⟩
  · cases z with
    | nil => exact ⟨[], by simpa using hSplit.symm, hRest.symm⟩
    | cons d z =>
      obtain rfl := (List.cons.inj hRest).1
      exact absurd (by simp [hSplit]) hFront

end AssetLoom.Text
