import AssetLoom.Directive.Comment
import Mathlib.Data.List.Infix

/-!
# What comments leave of a text

What is left of a text are the pieces between its comments (`stripComments_eq_flatten`), in their
order (`stripComments_sublist`), so a text without comments stays and no other one does
(`stripComments_eq_self_iff`). The pieces are joined without a second look at them: where two of
them make an opening mark together, a comment can be left
(`stripComments_stripComments_eq_iff`, `pieces_join_to_comment`).
-/

namespace AssetLoom

namespace Text

variable {mark t front behind : Text}

/-- A text is cut at a mark where the mark stands first. -/
theorem dropInfix?_eq_some_iff : t.dropInfix? mark = some (front, behind) ↔
    t = front ++ mark ++ behind ∧ ∀ x y, t = x ++ mark ++ y → front.length ≤ x.length := by
  simp only [List.dropInfix?_eq_some_iff, beq_iff_eq, exists_eq_right, ge_iff_le]
  refine and_congr_right fun _ => ⟨fun h x y hSplit => h x mark y hSplit rfl, ?_⟩
  rintro h x _ y hSplit rfl
  exact h x y hSplit

theorem dropInfix?_append_self (mark rest : Text) :
    (mark ++ rest).dropInfix? mark = some ([], rest) :=
  dropInfix?_eq_some_iff.mpr ⟨rfl, fun _ _ _ => Nat.zero_le _⟩

theorem dropInfix?_cons_of_not_isPrefix {c : Char} (h : ¬ mark <+: c :: t) :
    (c :: t).dropInfix? mark = (t.dropInfix? mark).map fun p => (c :: p.1, p.2) := by
  ext ⟨front, behind⟩
  simp only [Option.map_eq_some_iff, Prod.exists, Prod.mk.injEq, dropInfix?_eq_some_iff]
  constructor
  · rintro ⟨hSplit, hFirst⟩
    cases front with
    | nil => exact absurd ⟨behind, hSplit.symm⟩ h
    | cons d front =>
      obtain ⟨rfl, hRest⟩ := List.cons.inj hSplit
      refine ⟨front, behind, ⟨hRest, fun x y hOther => ?_⟩, rfl, rfl⟩
      exact Nat.le_of_succ_le_succ (hFirst (c :: x) y (by rw [hOther]; rfl))
  · rintro ⟨front, behind, ⟨rfl, hFirst⟩, rfl, rfl⟩
    refine ⟨rfl, fun x y hSplit => ?_⟩
    cases x with
    | nil => exact absurd ⟨y, hSplit.symm⟩ h
    | cons d x => exact Nat.succ_le_succ (hFirst x y (List.cons.inj hSplit).2)

theorem dropInfix?_eq_none_iff : t.dropInfix? mark = none ↔ ¬ mark <:+: t := by
  constructor
  · intro hNone hInfix
    induction t with
    | nil =>
      obtain rfl := List.infix_nil.mp hInfix
      simp at hNone
    | cons c t ih =>
      by_cases hPrefix : mark <+: c :: t
      · obtain ⟨behind, hSplit⟩ := hPrefix
        rw [← hSplit, dropInfix?_append_self] at hNone
        cases hNone
      · rw [dropInfix?_cons_of_not_isPrefix hPrefix, Option.map_eq_none_iff] at hNone
        exact ih hNone ((List.infix_cons_iff.mp hInfix).resolve_left hPrefix)
  · intro hNone
    rw [Option.eq_none_iff_forall_ne_some]
    rintro ⟨front, behind⟩ hSome
    obtain ⟨rfl, -⟩ := dropInfix?_eq_some_iff.mp hSome
    exact hNone ⟨front, behind, rfl⟩

end Text

namespace Directive

/-- The mark that a comment starts with. -/
def commentStart : Text := ['{', '{', '*']

/-- The mark that a comment ends with. -/
def commentEnd : Text := ['*', '}', '}']

/-- The pieces of a text between its comments: the first opening mark and the first closing mark
behind it are looked for, and what lies from the one to the other is left out, as long as there are
both. -/
def keptPieces (t : Text) : List Text :=
  match _hStart : t.dropInfix? commentStart with
  | none => [t]
  | some (kept, behind) =>
    match _hEnd : behind.dropInfix? commentEnd with
    | none => [t]
    | some (_, left) => kept :: keptPieces left
termination_by t.length
decreasing_by
  obtain ⟨rfl, -⟩ := Text.dropInfix?_eq_some_iff.mp _hStart
  obtain ⟨rfl, -⟩ := Text.dropInfix?_eq_some_iff.mp _hEnd
  simp [commentStart]
  omega

/-- A comment, which ends with the first closing mark in it. -/
def IsComment (t : Text) : Prop :=
  ∃ inside, t = commentStart ++ (inside ++ commentEnd) ∧
    (inside ++ commentEnd).dropInfix? commentEnd = some (inside, [])

/-- There is a comment in the text. -/
def HoldsComment (t : Text) : Prop :=
  ∃ x inside y, t = x ++ (commentStart ++ (inside ++ (commentEnd ++ y)))

/-! ## Reading a comment -/

theorem throughCommentEnd?_eq (t : Text) :
    throughCommentEnd? t = (t.dropInfix? commentEnd).map fun p => p.1.length + 3 := by
  fun_induction throughCommentEnd? t with
  | case1 rest =>
    have hHere : ('*' :: '}' :: '}' :: rest).dropInfix? commentEnd = some ([], rest) :=
      Text.dropInfix?_append_self commentEnd rest
    rw [hHere]
    rfl
  | case2 c rest hLater ih =>
    have hHere : ¬ commentEnd <+: c :: rest := by
      rintro ⟨left, hSplit⟩
      obtain ⟨rfl, rfl⟩ := List.cons.inj hSplit
      exact hLater left rfl rfl
    rw [Text.dropInfix?_cons_of_not_isPrefix hHere, ih]
    simp only [Option.map_map]
    rfl
  | case3 => rfl

theorem commentLength?_append (behind : Text) : commentLength? (commentStart ++ behind) =
    (behind.dropInfix? commentEnd).map fun p => p.1.length + 6 := by
  show (throughCommentEnd? behind).map (· + 3) = _
  rw [throughCommentEnd?_eq, Option.map_map]
  rfl

/-- Where a comment is read, one stands. -/
theorem exists_of_commentLength? {t : Text} {n : Nat} (h : commentLength? t = some n) :
    ∃ inside left, t = commentStart ++ (inside ++ (commentEnd ++ left)) := by
  obtain ⟨behind, rfl⟩ : ∃ behind, t = commentStart ++ behind := by
    unfold commentLength? at h
    split at h
    · exact ⟨_, rfl⟩
    · cases h
  rw [commentLength?_append] at h
  obtain ⟨⟨inside, left⟩, hEnd, -⟩ := Option.map_eq_some_iff.mp h
  obtain ⟨rfl, -⟩ := Text.dropInfix?_eq_some_iff.mp hEnd
  exact ⟨inside, left, by rw [List.append_assoc]⟩

/-! ## Leaving comments out -/

theorem stripCommentsFrom_skip (t rest : Text) :
    stripCommentsFrom t.length (t ++ rest) = stripComments rest := by
  induction t with
  | nil => rfl
  | cons c t ih => rw [List.cons_append, List.length_cons, stripCommentsFrom, ih]

/-- A text in which no comment begins stays. -/
theorem stripComments_append {front rest : Text}
    (h : ∀ x y, front = x ++ y → y ≠ [] → commentLength? (y ++ rest) = none) :
    stripComments (front ++ rest) = front ++ stripComments rest := by
  induction front with
  | nil => rfl
  | cons c front ih =>
    have hHere : commentLength? (c :: (front ++ rest)) = none := h [] (c :: front) rfl (by simp)
    rw [List.cons_append, stripComments, stripCommentsFrom, hHere]
    exact congrArg (c :: ·) (ih fun x y hSplit => h (c :: x) y (by rw [hSplit]; rfl))

/-- A comment is left out, up to the first closing mark. -/
theorem stripComments_comment {inside left : Text}
    (h : (inside ++ commentEnd ++ left).dropInfix? commentEnd = some (inside, left)) :
    stripComments (commentStart ++ (inside ++ commentEnd ++ left)) = stripComments left := by
  obtain ⟨c, rest, hComment⟩ : ∃ c rest, commentStart ++ (inside ++ commentEnd) = c :: rest :=
    ⟨_, _, rfl⟩
  have hText : commentStart ++ (inside ++ commentEnd ++ left) = c :: (rest ++ left) := by
    rw [← List.append_assoc, hComment, List.cons_append]
  have hLength : commentLength? (c :: (rest ++ left)) = some (rest.length + 1) := by
    have hCount := congrArg List.length hComment
    simp only [commentStart, commentEnd, List.length_append, List.length_cons, List.length_nil]
      at hCount
    rw [← hText, commentLength?_append, h, Option.map_some]
    refine congrArg some ?_
    dsimp only
    omega
  rw [hText, stripComments, stripCommentsFrom, hLength]
  exact stripCommentsFrom_skip rest left

/-! ## The pieces between comments -/

variable {t : Text}

theorem not_holdsComment_of_start (h : t.dropInfix? commentStart = none) : ¬ HoldsComment t := by
  rintro ⟨x, inside, y, rfl⟩
  exact Text.dropInfix?_eq_none_iff.mp h ⟨x, inside ++ (commentEnd ++ y), by simp⟩

theorem not_holdsComment_of_end {kept behind : Text}
    (hStart : t.dropInfix? commentStart = some (kept, behind))
    (hEnd : behind.dropInfix? commentEnd = none) : ¬ HoldsComment t := by
  rintro ⟨x, inside, y, hSplit⟩
  obtain ⟨hText, hFirst⟩ := Text.dropInfix?_eq_some_iff.mp hStart
  have hLe := hFirst x (inside ++ (commentEnd ++ y)) (by rw [hSplit, List.append_assoc])
  have hInside : inside ++ (commentEnd ++ y) <:+ t :=
    ⟨x ++ commentStart, by rw [hSplit, List.append_assoc]⟩
  have hBehind : behind <:+ t := ⟨kept ++ commentStart, hText.symm⟩
  have hSuffix : inside ++ (commentEnd ++ y) <:+ behind := by
    refine List.suffix_of_suffix_length_le hInside hBehind ?_
    have hLength := congrArg List.length (hText.symm.trans hSplit)
    simp only [List.length_append] at hLength ⊢
    omega
  exact Text.dropInfix?_eq_none_iff.mp hEnd
    (List.IsInfix.trans ⟨inside, y, List.append_assoc ..⟩ hSuffix.isInfix)

theorem stripComments_eq_self (h : ¬ HoldsComment t) : stripComments t = t := by
  have hNone : ∀ x y, t = x ++ y → y ≠ [] → commentLength? (y ++ []) = none := by
    rintro x y rfl -
    rw [List.append_nil, Option.eq_none_iff_forall_ne_some]
    intro n hn
    obtain ⟨inside, left, rfl⟩ := exists_of_commentLength? hn
    exact h ⟨x, inside, left, rfl⟩
  simpa [stripComments, stripCommentsFrom] using stripComments_append hNone

/-- The first comment of a text is left out, and what follows it is treated in the same way. -/
theorem stripComments_first {kept inside left : Text}
    (hStart : t.dropInfix? commentStart = some (kept, inside ++ commentEnd ++ left))
    (hEnd : (inside ++ commentEnd ++ left).dropInfix? commentEnd = some (inside, left)) :
    stripComments t = kept ++ stripComments left := by
  obtain ⟨rfl, hFirst⟩ := Text.dropInfix?_eq_some_iff.mp hStart
  rw [List.append_assoc, stripComments_append, stripComments_comment hEnd]
  rintro x y rfl hNonempty
  rw [Option.eq_none_iff_forall_ne_some]
  intro n hn
  obtain ⟨inside', left', hSplit⟩ := exists_of_commentLength? hn
  have hLe := hFirst x (inside' ++ (commentEnd ++ left'))
    (by rw [List.append_assoc, List.append_assoc, hSplit, List.append_assoc])
  have hPos := List.length_pos_iff.mpr hNonempty
  rw [List.length_append] at hLe
  omega

/-- What is left of a text are its pieces between the comments. -/
theorem stripComments_eq_flatten (t : Text) : stripComments t = (keptPieces t).flatten := by
  fun_induction keptPieces t with
  | case1 t hStart => simpa using stripComments_eq_self (not_holdsComment_of_start hStart)
  | case2 t kept behind hStart hEnd =>
    simpa using stripComments_eq_self (not_holdsComment_of_end hStart hEnd)
  | case3 t kept behind hStart inside left hEnd ih =>
    obtain ⟨rfl, -⟩ := Text.dropInfix?_eq_some_iff.mp hEnd
    rw [stripComments_first hStart hEnd, ih, List.flatten_cons]

/-- A text are its pieces, with the comments between them. -/
theorem exists_comments (t : Text) : ∃ first others comments, keptPieces t = first :: others ∧
    comments.length = others.length ∧ (∀ comment ∈ comments, IsComment comment) ∧
    t = first ++ (List.zipWith (· ++ ·) comments others).flatten := by
  fun_induction keptPieces t with
  | case1 t hStart | case2 t kept behind hStart hEnd =>
    exact ⟨t, [], [], rfl, rfl, by simp, by simp⟩
  | case3 t kept behind hStart inside left hEnd ih =>
    obtain ⟨first, others, comments, hPieces, hLength, hComments, hLeft⟩ := ih
    obtain ⟨rfl, -⟩ := Text.dropInfix?_eq_some_iff.mp hStart
    obtain ⟨rfl, hFirst⟩ := Text.dropInfix?_eq_some_iff.mp hEnd
    have hInside : (inside ++ commentEnd).dropInfix? commentEnd = some (inside, []) := by
      refine Text.dropInfix?_eq_some_iff.mpr ⟨by simp, fun x y hSplit => ?_⟩
      exact hFirst x (y ++ left) (by rw [hSplit]; simp)
    refine ⟨kept, first :: others, (commentStart ++ (inside ++ commentEnd)) :: comments,
      by rw [hPieces], congrArg (· + 1) hLength,
      List.forall_mem_cons.mpr ⟨⟨inside, rfl, hInside⟩, hComments⟩, ?_⟩
    rw [List.zipWith_cons_cons, List.flatten_cons, List.append_assoc _ first, ← hLeft]
    simp

/-! ## Leaving comments out twice -/

theorem stripComments_sublist (t : Text) : (stripComments t).Sublist t := by
  rw [stripComments_eq_flatten]
  fun_induction keptPieces t with
  | case1 t => simp
  | case2 t => simp
  | case3 t kept behind hStart inside left hEnd ih =>
    obtain ⟨rfl, -⟩ := Text.dropInfix?_eq_some_iff.mp hStart
    obtain ⟨rfl, -⟩ := Text.dropInfix?_eq_some_iff.mp hEnd
    rw [List.flatten_cons, List.append_assoc]
    exact (List.Sublist.refl kept).append
      ((ih.trans (List.sublist_append_right ..)).trans (List.sublist_append_right ..))

/-- Only a text without comments stays as it is. -/
theorem stripComments_eq_self_iff : stripComments t = t ↔ ¬ HoldsComment t := by
  refine ⟨fun hSelf hComment => ?_, stripComments_eq_self⟩
  cases hStart : t.dropInfix? commentStart with
  | none => exact not_holdsComment_of_start hStart hComment
  | some p =>
    obtain ⟨kept, behind⟩ := p
    cases hEnd : behind.dropInfix? commentEnd with
    | none => exact not_holdsComment_of_end hStart hEnd hComment
    | some q =>
      obtain ⟨inside, left⟩ := q
      obtain ⟨rfl, -⟩ := Text.dropInfix?_eq_some_iff.mp hEnd
      have hLength := congrArg List.length hSelf
      rw [stripComments_first hStart hEnd] at hLength
      obtain ⟨rfl, -⟩ := Text.dropInfix?_eq_some_iff.mp hStart
      have hLe := (stripComments_sublist left).length_le
      simp only [commentStart, commentEnd, List.length_append, List.length_cons] at hLength
      omega

/-- All pieces but the last one are without an opening mark; the last one may hold one, but no
comment. -/
theorem exists_keptPieces_eq (t : Text) : ∃ pieces last, keptPieces t = pieces ++ [last] ∧
    (∀ piece ∈ pieces, ¬ commentStart <:+: piece) ∧ ¬ HoldsComment last := by
  fun_induction keptPieces t with
  | case1 t hStart => exact ⟨[], t, rfl, by simp, not_holdsComment_of_start hStart⟩
  | case2 t kept behind hStart hEnd =>
    exact ⟨[], t, rfl, by simp, not_holdsComment_of_end hStart hEnd⟩
  | case3 t kept behind hStart inside left hEnd ih =>
    obtain ⟨pieces, last, hPieces, hNone, hLast⟩ := ih
    refine ⟨kept :: pieces, last, by rw [hPieces]; rfl, ?_, hLast⟩
    refine List.forall_mem_cons.mpr ⟨?_, hNone⟩
    rintro ⟨x, y, rfl⟩
    obtain ⟨rfl, hFirst⟩ := Text.dropInfix?_eq_some_iff.mp hStart
    have hLe := hFirst x (y ++ commentStart ++ behind) (by simp)
    simp only [commentStart, List.length_append, List.length_cons] at hLe
    omega

/-- The opening mark between two parts of a text lies within one of the pieces that the text is
made of. -/
def MarkWithin (pieces : List Text) (x y : Text) : Prop :=
  ∃ before front behind after, pieces = before ++ (front ++ commentStart ++ behind) :: after ∧
    x = before.flatten ++ front ∧ y = behind ++ after.flatten

/-- Behind an opening mark within one piece no closing mark is left. -/
theorem not_commentEnd_of_markWithin {x y : Text} (h : MarkWithin (keptPieces t) x y) :
    ¬ commentEnd <:+: y := by
  obtain ⟨before, front, behind, after, hPieces, -, rfl⟩ := h
  obtain ⟨pieces, last, hKept, hNone, hLast⟩ := exists_keptPieces_eq t
  rw [hKept] at hPieces
  rcases List.eq_nil_or_concat after with rfl | ⟨after, p, rfl⟩
  · obtain ⟨-, hPiece⟩ := List.append_inj' hPieces rfl
    rintro ⟨inside, left, hInside⟩
    refine hLast ⟨front, inside, left, ?_⟩
    rw [List.singleton_inj.mp hPiece, ← List.append_assoc inside, hInside]
    simp
  · -- The mark is in a piece before the last one, where there is none.
    have hInit : pieces ++ [last] =
        (before ++ (front ++ commentStart ++ behind) :: after) ++ [p] := by
      simpa using hPieces
    have hMem : front ++ commentStart ++ behind ∈ pieces := by
      rw [(List.append_inj' hInit rfl).1]
      simp
    exact absurd ⟨front, behind, rfl⟩ (hNone _ hMem)

/-- Leaving comments out again changes nothing exactly if none is left, and one is left exactly if
somewhere before a closing mark the pieces join to an opening mark. -/
theorem stripComments_stripComments_eq_iff (t : Text) :
    let left := stripComments t
    (stripComments left = left ↔ ¬ HoldsComment left) ∧
      (HoldsComment left ↔ ∃ x y, left = x ++ commentStart ++ y ∧ commentEnd <:+: y ∧
        ¬ MarkWithin (keptPieces t) x y) := by
  intro left
  refine ⟨stripComments_eq_self_iff, ?_, ?_⟩
  · rintro ⟨x, inside, y, hSplit⟩
    have hEnd : commentEnd <:+: inside ++ (commentEnd ++ y) := ⟨inside, y, List.append_assoc ..⟩
    exact ⟨x, inside ++ (commentEnd ++ y), by rw [hSplit, List.append_assoc], hEnd,
      fun hWithin => not_commentEnd_of_markWithin hWithin hEnd⟩
  · rintro ⟨x, _, hSplit, ⟨inside, y, rfl⟩, -⟩
    exact ⟨x, inside, y, by rw [hSplit]; simp⟩

/-- A comment within an opening mark: what is left is a comment, which goes the second time. -/
theorem pieces_join_to_comment :
    let t := ['{', '{'] ++ (commentStart ++ commentEnd) ++ "* b *".toList ++ ['}', '}']
    stripComments t = commentStart ++ " b ".toList ++ commentEnd ∧
      stripComments (stripComments t) = [] := by
  decide

end Directive

end AssetLoom
