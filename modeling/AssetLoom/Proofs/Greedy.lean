import AssetLoom.Proofs.Splice
import Mathlib.Data.List.Perm.Subperm

/-!
# One comparison is enough

Items whose spans overlap are left out in order of start, and each is compared with the item kept
last only. The plain way is to compare it with all items kept so far (`keepApart`). If no span is
empty the two are the same (`disjoint_eq_keepApart`): what is kept follows one another, so the item
kept last is the one that ends last, and whatever starts behind its start can overlap no other.

* `InOrder`: the order in which items are visited.
* `Kept`: what holds of the items kept so far, and of those that are still to be visited.
-/

namespace AssetLoom

/-! ## The order of visits -/

/-- The items in order of start, and those with the same start as they are listed. -/
structure InOrder {α : Type} (span : α → Span) (items ordered : List α) : Prop where
  perm : ordered.Perm items
  ascending : ordered.Pairwise fun a b => (span a).start ≤ (span b).start
  stable : ∀ n, ordered.filter (fun x => (span x).start = n) =
    items.filter fun x => (span x).start = n

section

variable {α : Type} {span : α → Span} {items ordered other : List α}

theorem inOrder_mergeSort (span : α → Span) (items : List α) :
    InOrder span items (items.mergeSort fun a b => (span a).startsBefore (span b)) where
  perm := List.mergeSort_perm ..
  ascending := pairwise_start_mergeSort span items
  stable := filter_start_mergeSort span items

theorem mem_iff_of_filter_start {x : α}
    (hSame : ∀ n, ordered.filter (fun x => (span x).start = n) =
      other.filter fun x => (span x).start = n) : x ∈ ordered ↔ x ∈ other := by
  have hMem : ∀ l : List α, x ∈ l ↔ x ∈ l.filter fun y => (span y).start = (span x).start := by
    simp
  rw [hMem ordered, hSame, ← hMem]

/-- Ascending items are determined by those of each start. -/
theorem eq_of_filter_start
    (hOrdered : ordered.Pairwise fun a b => (span a).start ≤ (span b).start)
    (hOther : other.Pairwise fun a b => (span a).start ≤ (span b).start)
    (hSame : ∀ n, ordered.filter (fun x => (span x).start = n) =
      other.filter fun x => (span x).start = n) : ordered = other := by
  induction ordered generalizing other with
  | nil =>
    exact (List.eq_nil_iff_forall_not_mem.mpr fun x hx =>
      List.not_mem_nil ((mem_iff_of_filter_start hSame).mpr hx)).symm
  | cons x ordered ih =>
    cases other with
    | nil => exact absurd ((mem_iff_of_filter_start hSame).mp List.mem_cons_self) List.not_mem_nil
    | cons y other =>
      obtain ⟨hX, hRestX⟩ := List.pairwise_cons.mp hOrdered
      obtain ⟨hY, hRestY⟩ := List.pairwise_cons.mp hOther
      -- Each of the two that come first is among the others, so they start at the same byte.
      have hStart : (span x).start = (span y).start := by
        apply Nat.le_antisymm
        · rcases List.mem_cons.mp ((mem_iff_of_filter_start hSame).mpr List.mem_cons_self) with h | h
          · exact Nat.le_of_eq (by rw [h])
          · exact hX y h
        · rcases List.mem_cons.mp ((mem_iff_of_filter_start hSame).mp List.mem_cons_self) with h | h
          · exact Nat.le_of_eq (by rw [h])
          · exact hY x h
      have hFirst := hSame (span x).start
      rw [List.filter_cons_of_pos (by simp), List.filter_cons_of_pos (by simp [hStart])] at hFirst
      obtain ⟨rfl, -⟩ := List.cons.inj hFirst
      refine congrArg (x :: ·) (ih hRestX hRestY fun n => ?_)
      have hRest := hSame n
      simp only [List.filter_cons] at hRest
      split at hRest
      · exact (List.cons.inj hRest).2
      · exact hRest

theorem InOrder.unique (h : InOrder span items ordered) (h' : InOrder span items other) :
    ordered = other :=
  eq_of_filter_start h.ascending h'.ascending fun n => (h.stable n).trans (h'.stable n).symm

end

/-! ## What is kept -/

/-- Visits items one after the other and keeps each one that overlaps none of those kept before. -/
def keepApart {α : Type} (span : α → Span) : List α → List α → List α
  | kept, [] => kept
  | kept, x :: rest =>
    if kept.any fun a => (span a).overlaps (span x) then keepApart span kept rest
    else keepApart span (kept ++ [x]) rest

/-- The items that are kept are not empty and follow one another, and none of them starts behind
one that is still to be visited. -/
structure Kept {α : Type} (span : α → Span) (kept rest : List α) : Prop where
  nonempty : ∀ a ∈ kept, (span a).start < (span a).stop
  follow : kept.Pairwise fun a b => (span a).Precedes (span b)
  started : ∀ a ∈ kept, ∀ x ∈ rest, (span a).start ≤ (span x).start

namespace Kept

variable {α : Type} {span : α → Span} {kept rest : List α} {x : α}

theorem nil (span : α → Span) (rest : List α) : Kept span [] rest :=
  ⟨nofun, .nil, nofun⟩

theorem skip (h : Kept span kept (x :: rest)) : Kept span kept rest :=
  ⟨h.nonempty, h.follow, fun a ha b hb => h.started a ha b (List.mem_cons_of_mem x hb)⟩

theorem push (h : Kept span kept (x :: rest)) (hNonempty : (span x).start < (span x).stop)
    (hOrder : ∀ b ∈ rest, (span x).start ≤ (span b).start)
    (hApart : ∀ a ∈ kept, (span a).overlaps (span x) = false) : Kept span (kept ++ [x]) rest where
  nonempty := by simpa [or_imp, forall_and] using ⟨h.nonempty, hNonempty⟩
  follow := by
    refine List.pairwise_append.mpr ⟨h.follow, List.pairwise_singleton _ _, ?_⟩
    rintro a ha b hb
    obtain rfl := List.mem_singleton.mp hb
    have hStart := h.started a ha b List.mem_cons_self
    have hOr := Span.precedes_or_insertsAt hStart (Nat.le_of_lt hNonempty) (hApart a ha)
    refine hOr.resolve_right ?_
    rintro ⟨-, hSame, hStop⟩
    omega
  started := by
    intro a ha b hb
    rcases List.mem_append.mp ha with ha | ha
    · exact h.started a ha b (List.mem_cons_of_mem x hb)
    · exact List.mem_singleton.mp ha ▸ hOrder b hb

/-- What overlaps any of the items that are kept overlaps the last one. -/
theorem any_overlaps {last : α} (h : Kept span (kept ++ [last]) (x :: rest)) :
    ((kept ++ [last]).any fun a => (span a).overlaps (span x)) =
      (span last).overlaps (span x) := by
  obtain ⟨-, -, hBefore⟩ := List.pairwise_append.mp h.follow
  have hStart := h.started last (by simp) x List.mem_cons_self
  have hNone : (kept.any fun a => (span a).overlaps (span x)) = false := by
    refine List.any_eq_false.mpr fun a ha => ?_
    have hStop : (span a).Precedes (span x) :=
      Nat.le_trans (hBefore a ha last (List.mem_singleton_self last)) hStart
    simp [hStop.not_overlaps]
  rw [List.any_append, hNone, Bool.false_or, List.any_cons, List.any_nil, Bool.or_false]

end Kept

section

variable {α : Type} {span : α → Span} {kept items : List α}

theorem keepDisjoint_nil (span : α → Span) (last : Option α) : keepDisjoint span last [] = [] := by
  cases last <;> rfl

/-- Items in order that are compared with all that were kept are the same as those that are
compared with the last one. -/
theorem keepApart_eq (hKept : Kept span kept items)
    (hNonempty : ∀ x ∈ items, (span x).start < (span x).stop)
    (hOrder : items.Pairwise fun a b => (span a).start ≤ (span b).start) :
    keepApart span kept items = kept ++ keepDisjoint span kept.getLast? items := by
  induction items generalizing kept with
  | nil => rw [keepApart, keepDisjoint_nil, List.append_nil]
  | cons x items ih =>
    obtain ⟨hX, hNonempty⟩ := List.forall_mem_cons.mp hNonempty
    obtain ⟨hFirst, hOrder⟩ := List.pairwise_cons.mp hOrder
    rw [keepApart]
    rcases List.eq_nil_or_concat' kept with rfl | ⟨front, last, rfl⟩
    · have hPush := hKept.push hX hFirst (by simp)
      rw [ih hPush hNonempty hOrder]
      rfl
    · have hAny := hKept.any_overlaps
      rw [hAny, List.getLast?_concat, keepDisjoint]
      by_cases hSkip : (span last).overlaps (span x) = true
      · rw [if_pos hSkip, if_pos hSkip, ih hKept.skip hNonempty hOrder, List.getLast?_concat]
      · have hApart := List.any_eq_false.mp (hAny.trans (Bool.eq_false_iff.mpr hSkip))
        have hPush := hKept.push hX hFirst fun a ha => Bool.eq_false_iff.mpr (hApart a ha)
        rw [if_neg hSkip, if_neg hSkip, ih hPush hNonempty hOrder, List.getLast?_concat,
          List.append_assoc, List.singleton_append]

end

/-- If no item has an empty span, to compare each one with the item kept last is to visit them in
order of start and to keep those that overlap no other that is kept. What is kept is in order and
does not overlap, and each item that is left out overlaps one that is kept and starts no later. -/
theorem disjoint_eq_keepApart {α : Type} {span : α → Span} {items : List α}
    (hNonempty : ∀ x ∈ items, (span x).start < (span x).stop) :
    let kept := disjoint span items
    (∃ ordered, InOrder span items ordered ∧
      (∀ other, InOrder span items other → other = ordered) ∧
      kept = keepApart span [] ordered) ∧
    kept.Pairwise (fun a b => (span a).start < (span b).start) ∧
    kept.Pairwise (fun a b => (span a).overlaps (span b) = false) ∧
    ∃ dropped, items.Perm (kept ++ dropped) ∧ ∀ x ∈ dropped, ∃ a ∈ kept,
      (span a).start ≤ (span x).start ∧ (span a).overlaps (span x) = true := by
  intro kept
  have hInOrder := inOrder_mergeSort span items
  have hFollow : kept.Pairwise fun a b => (span a).Precedes (span b) := by
    refine pairwise_disjoint (fun x hx => Nat.le_of_lt (hNonempty x hx)) ?_
    exact List.pairwise_of_forall_mem_list fun a ha b hb _ => ⟨hNonempty a ha, hNonempty b hb⟩
  refine ⟨⟨_, hInOrder, fun other hOther => hOther.unique hInOrder, ?_⟩, ?_,
    hFollow.imp Span.Precedes.not_overlaps, ?_⟩
  · rw [keepApart_eq (.nil span _) (fun x hx => hNonempty x (List.mem_mergeSort.mp hx))
      hInOrder.ascending]
    rfl
  · refine hFollow.imp_of_mem fun {a b} ha _ hab => ?_
    exact Nat.lt_of_lt_of_le (hNonempty a (mem_of_mem_disjoint ha)) hab
  · obtain ⟨dropped, hDropped⟩ := (keepDisjoint_sublist span none
      (items.mergeSort fun a b => (span a).startsBefore (span b))).exists_perm_append
    have hPerm : items.Perm (kept ++ dropped) := hInOrder.perm.symm.trans hDropped
    refine ⟨dropped, hPerm, fun x hx => ?_⟩
    have hItem : x ∈ items := hPerm.mem_iff.mpr (List.mem_append_right _ hx)
    by_cases hCopy : x ∈ kept
    · -- A copy of the item is kept, and it is not empty.
      refine ⟨x, hCopy, Nat.le_refl _, ?_⟩
      simp [Span.overlaps, hNonempty x hItem]
    · exact overlaps_of_notMem_disjoint hItem hCopy

/-- Two items start at the same byte, two touch, and one overlaps two others. -/
theorem disjoint_eq_keepApart_letters :
    let items : List (Char × Span) :=
      [('d', ⟨3, 5⟩), ('a', ⟨0, 3⟩), ('b', ⟨0, 1⟩), ('e', ⟨5, 6⟩), ('c', ⟨2, 4⟩)]
    let ordered : List (Char × Span) :=
      [('a', ⟨0, 3⟩), ('b', ⟨0, 1⟩), ('c', ⟨2, 4⟩), ('d', ⟨3, 5⟩), ('e', ⟨5, 6⟩)]
    (∀ x ∈ items, x.2.start < x.2.stop) ∧ InOrder Prod.snd items ordered ∧
      disjoint Prod.snd items = keepApart Prod.snd [] ordered ∧
      disjoint Prod.snd items = [('a', ⟨0, 3⟩), ('d', ⟨3, 5⟩), ('e', ⟨5, 6⟩)] := by
  intro items ordered
  have hNonempty : ∀ x ∈ items, x.2.start < x.2.stop := by decide
  have hInOrder : InOrder Prod.snd items ordered := by
    have hSort : items.mergeSort (fun a b => a.2.startsBefore b.2) = ordered := by
      simp [items, ordered, List.mergeSort, List.MergeSort.Internal.splitInTwo, Span.startsBefore]
    exact hSort ▸ inOrder_mergeSort Prod.snd items
  obtain ⟨⟨_, -, hUnique, hKept⟩, -⟩ := disjoint_eq_keepApart hNonempty
  rw [← hUnique ordered hInOrder] at hKept
  exact ⟨hNonempty, hInOrder, hKept, hKept.trans (by decide)⟩

end AssetLoom
