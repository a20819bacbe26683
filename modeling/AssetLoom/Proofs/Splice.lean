import AssetLoom.Edit

/-!
# Edits that fit a text

Edits fit a text if their spans are parts of the text and follow one another (`Fits`). Such edits
are all applied, in their order (`spliced_applyEdits`): each span is replaced and the text between
the spans stays, which is what `Spliced` says of the text before and the text after.
-/

namespace AssetLoom

namespace Text

theorem byteLength_eq_zero {t : Text} : byteLength t = 0 ↔ t = [] := by
  cases t with
  | nil => simp
  | cons c t =>
    have := c.utf8Size_pos
    simp
    omega

/-- Of two fronts of a text the one that is not longer is a front of the other. -/
theorem append_eq_append_of_byteLength_le {a b c d : Text} (h : a ++ b = c ++ d)
    (hLe : byteLength a ≤ byteLength c) : ∃ k, c = a ++ k ∧ b = k ++ d := by
  rcases List.append_eq_append_iff.mp h with ⟨k, hc, hb⟩ | ⟨k, ha, hd⟩
  · exact ⟨k, hc, hb⟩
  · have hk : k = [] := by
      rw [← byteLength_eq_zero]
      rw [ha, byteLength_append] at hLe
      omega
    subst hk
    exact ⟨[], by simpa using ha.symm, by simpa using hd.symm⟩

/-- A text is cut in one way at a byte offset. -/
theorem append_inj_of_byteLength {a b c d : Text} (h : a ++ b = c ++ d)
    (hEq : byteLength a = byteLength c) : a = c ∧ b = d := by
  obtain ⟨k, hc, hb⟩ := append_eq_append_of_byteLength_le h (Nat.le_of_eq hEq)
  have hk : k = [] := by
    rw [← byteLength_eq_zero]
    rw [hc, byteLength_append] at hEq
    omega
  subst hk
  exact ⟨by simpa using hc.symm, by simpa using hb⟩

/-- The part of a text between two cuts. -/
theorem slice?_of_eq {t : Text} (a b c : Text) {start stop : Nat} (h : t = a ++ b ++ c)
    (hStart : start = byteLength a) (hStop : stop = byteLength a + byteLength b) :
    slice? t start stop = some b := by
  rw [h, hStart, hStop, slice?_append]

end Text

open Text (byteLength)

/-- The span is a part of the text. -/
def Span.Within (t : Text) (span : Span) : Prop :=
  ∃ a b c : Text, t = a ++ b ++ c ∧ span = ⟨byteLength a, byteLength a + byteLength b⟩

theorem Span.Within.start_le_stop {t : Text} {span : Span} (h : span.Within t) :
    span.start ≤ span.stop := by
  obtain ⟨a, b, c, -, rfl⟩ := h
  exact Nat.le_add_right ..

theorem Span.overlaps_comm (a b : Span) : a.overlaps b = b.overlaps a := by
  rw [overlaps, Bool.and_comm, overlaps]

/-- The first span ends before the second one starts. -/
def Span.Precedes (a b : Span) : Prop :=
  a.stop ≤ b.start

theorem Span.Precedes.not_overlaps {a b : Span} (h : a.Precedes b) : a.overlaps b = false := by
  unfold Precedes at h
  simp only [overlaps, Bool.and_eq_false_iff, decide_eq_false_iff_not]
  omega

/-! ## Items that are disjoint already -/

theorem keepDisjoint_eq_self {α : Type} {span : α → Span} {items : List α} {last : Option α}
    (h : items.Pairwise fun a b => (span a).Precedes (span b))
    (hLast : ∀ a ∈ last, ∀ b ∈ items, (span a).Precedes (span b)) :
    keepDisjoint span last items = items := by
  induction items generalizing last with
  | nil => cases last <;> rfl
  | cons x rest ih =>
    obtain ⟨hx, hRest⟩ := List.pairwise_cons.mp h
    have hKeep : keepDisjoint span (some x) rest = rest :=
      ih hRest (by simpa using hx)
    cases last with
    | none => rw [keepDisjoint, hKeep]
    | some a =>
      have hPrecedes := hLast a rfl x List.mem_cons_self
      rw [keepDisjoint, hPrecedes.not_overlaps, hKeep]
      rfl

/-- Nothing is left out of items that follow one another. -/
theorem disjoint_eq_self {α : Type} {span : α → Span} {items : List α}
    (hOrder : items.Pairwise fun a b => (span a).Precedes (span b))
    (hLe : ∀ x ∈ items, (span x).start ≤ (span x).stop) : disjoint span items = items := by
  have hSorted : items.Pairwise fun a b => (span a).startsBefore (span b) = true := by
    refine List.Pairwise.imp_of_mem ?_ hOrder
    intro a b ha _ hab
    exact decide_eq_true (Nat.le_trans (hLe a ha) hab)
  rw [disjoint, List.mergeSort_of_pairwise hSorted]
  exact keepDisjoint_eq_self hOrder (by simp)

/-! ## Items that overlap -/

theorem Span.startsBefore_trans {a b c : Span} (hab : a.startsBefore b = true)
    (hbc : b.startsBefore c = true) : a.startsBefore c = true :=
  decide_eq_true (Nat.le_trans (of_decide_eq_true hab) (of_decide_eq_true hbc))

theorem Span.startsBefore_total (a b : Span) :
    (a.startsBefore b || b.startsBefore a) = true := by
  simpa [startsBefore] using Nat.le_total ..

/-- The first span is empty and stands at the start of the second one, which is not. Such spans
do not overlap. -/
def Span.InsertsAt (b a : Span) : Prop :=
  a.start < a.stop ∧ b.start = a.start ∧ b.stop = a.start

instance (a b : Span) : Decidable (b.InsertsAt a) :=
  inferInstanceAs (Decidable (_ ∧ _ ∧ _))

theorem Span.InsertsAt.not_overlaps {a b : Span} (h : b.InsertsAt a) : a.overlaps b = false := by
  unfold InsertsAt at h
  simp only [overlaps, Bool.and_eq_false_iff, decide_eq_false_iff_not]
  omega

/-- Of two spans in order that do not overlap, the second one lies behind the first one or is
inserted at its start. -/
theorem Span.precedes_or_insertsAt {a b : Span} (hStart : a.start ≤ b.start)
    (hLe : b.start ≤ b.stop) (hApart : a.overlaps b = false) :
    a.Precedes b ∨ b.InsertsAt a := by
  simp only [overlaps, Bool.and_eq_false_iff, decide_eq_false_iff_not] at hApart
  unfold Precedes InsertsAt
  omega

theorem keepDisjoint_sublist {α : Type} (span : α → Span) (last : Option α) (items : List α) :
    (keepDisjoint span last items).Sublist items := by
  induction items generalizing last with
  | nil => cases last <;> exact .slnil
  | cons x rest ih =>
    cases last with
    | none => exact .cons_cons x (ih _)
    | some a =>
      rw [keepDisjoint]
      split
      · exact .cons x (ih _)
      · exact .cons_cons x (ih _)

section

variable {α : Type} {span : α → Span} {items : List α}

/-- What is kept of items in order follows one another exactly if none of them is inserted at the
start of one that is kept before it. -/
theorem pairwise_keepDisjoint_iff {last : α}
    (hLe : ∀ x ∈ items, (span x).start ≤ (span x).stop)
    (hOrder : (last :: items).Pairwise fun a b => (span a).start ≤ (span b).start) :
    (last :: keepDisjoint span (some last) items).Pairwise
        (fun a b => (span a).Precedes (span b)) ↔
      (last :: items).Pairwise fun a b =>
        a ∈ last :: keepDisjoint span (some last) items → ¬ (span b).InsertsAt (span a) := by
  induction items generalizing last with
  | nil => simp [keepDisjoint]
  | cons x rest ih =>
    obtain ⟨hLast, hRest⟩ := List.pairwise_cons.mp hOrder
    obtain ⟨hLeX, hLeRest⟩ := List.forall_mem_cons.mp hLe
    have hSub : (last :: rest).Sublist (last :: x :: rest) :=
      .cons_cons last (List.sublist_cons_self x rest)
    rw [keepDisjoint]
    split
    · next hSkip =>
      -- An item that overlaps the one kept last is no insertion, and no copy of it is kept.
      rw [ih hLeRest (hOrder.sublist hSub)]
      refine ⟨fun h => ?_, fun h => h.sublist hSub⟩
      obtain ⟨hBehind, hLater⟩ := List.pairwise_cons.mp h
      have hKept := List.pairwise_cons.mp ((ih hLeRest (hOrder.sublist hSub)).mpr h)
      refine List.pairwise_cons.mpr ⟨List.forall_mem_cons.mpr ⟨fun _ hInserts => ?_, hBehind⟩,
        List.pairwise_cons.mpr ⟨fun y hy hMem => ?_, hLater⟩⟩
      · rw [hInserts.not_overlaps] at hSkip
        cases hSkip
      · rcases List.mem_cons.mp hMem with rfl | hMem
        · exact hBehind y hy List.mem_cons_self
        · rw [(hKept.1 x hMem).not_overlaps] at hSkip
          cases hSkip
    · next hKeep =>
      -- Behind an item that lies behind the one kept last, all items do.
      have hLastX : (span last).start ≤ (span x).start := hLast x List.mem_cons_self
      have hX : ∀ y ∈ x :: rest, (span x).start ≤ (span y).start :=
        List.forall_mem_cons.mpr ⟨Nat.le_refl _, (List.pairwise_cons.mp hRest).1⟩
      rw [List.pairwise_cons, ih hLeRest hRest]
      constructor
      · rintro ⟨hBehind, hLater⟩
        have hNone : ∀ y ∈ x :: rest, ¬ (span y).InsertsAt (span last) := by
          rintro y hy ⟨hNonempty, hStart, -⟩
          have := hX y hy
          have := hBehind x List.mem_cons_self
          unfold Span.Precedes at this
          omega
        refine List.pairwise_cons.mpr ⟨fun y hy _ => hNone y hy, hLater.imp_of_mem ?_⟩
        rintro a b - hb hab hMem
        rcases List.mem_cons.mp hMem with rfl | hMem
        · exact hNone b hb
        · exact hab hMem
      · intro h
        obtain ⟨hBehind, hLater⟩ := List.pairwise_cons.mp h
        refine ⟨fun y hy => ?_,
          hLater.imp fun hab hMem => hab (List.mem_cons_of_mem last hMem)⟩
        have hMem : y ∈ x :: rest := ((keepDisjoint_sublist span (some x) rest).cons_cons x).subset hy
        have hPrecedes : (span last).Precedes (span x) :=
          (Span.precedes_or_insertsAt hLastX hLeX (by simpa using hKeep)).resolve_right
            (hBehind x List.mem_cons_self List.mem_cons_self)
        exact Nat.le_trans hPrecedes (hX y hMem)

/-- Items in order of start. -/
theorem pairwise_start_mergeSort (span : α → Span) (items : List α) :
    (items.mergeSort fun a b => (span a).startsBefore (span b)).Pairwise
      fun a b => (span a).start ≤ (span b).start := by
  refine (List.pairwise_mergeSort ?_ ?_ items).imp of_decide_eq_true
  · exact fun _ _ _ => Span.startsBefore_trans
  · exact fun _ _ => Span.startsBefore_total ..

/-- Items that are listed in order of start keep their order. -/
theorem sublist_mergeSort_start {part : List α} (hSub : part.Sublist items)
    (hOrder : part.Pairwise fun a b => (span a).start ≤ (span b).start) :
    part.Sublist (items.mergeSort fun a b => (span a).startsBefore (span b)) := by
  refine List.sublist_mergeSort ?_ ?_ (hOrder.imp decide_eq_true) hSub
  · exact fun _ _ _ => Span.startsBefore_trans
  · exact fun _ _ => Span.startsBefore_total ..

/-- Items with the same start keep their order. -/
theorem filter_start_mergeSort (span : α → Span) (items : List α) (n : Nat) :
    (items.mergeSort fun a b => (span a).startsBefore (span b)).filter
      (fun x => (span x).start = n) = items.filter fun x => (span x).start = n := by
  have hSame : (items.filter fun x => (span x).start = n).Pairwise
      fun a b => (span a).start ≤ (span b).start := by
    refine List.pairwise_of_forall_mem_list fun a ha b hb => ?_
    simp only [List.mem_filter, decide_eq_true_eq] at ha hb
    omega
  have hSub := sublist_mergeSort_start List.filter_sublist hSame
  have hFilter := hSub.filter fun x => (span x).start = n
  simp only [List.filter_filter, Bool.and_self] at hFilter
  exact (hFilter.eq_of_length ((List.mergeSort_perm ..).filter _).length_eq.symm).symm

/-- What concerns only items with the same start holds in order of start if it does in the given
order. -/
theorem pairwise_mergeSort_iff {R : α → α → Prop}
    (hR : ∀ a b, (span a).start ≠ (span b).start → R a b) :
    (items.mergeSort fun a b => (span a).startsBefore (span b)).Pairwise R ↔ items.Pairwise R := by
  have hFilter : ∀ l : List α, l.Pairwise R ↔
      ∀ n, (l.filter fun x => (span x).start = n).Pairwise R := by
    intro l
    refine ⟨fun h n => h.filter _, fun h => List.pairwise_iff_forall_sublist.mpr ?_⟩
    intro a b hPair
    by_cases hSame : (span a).start = (span b).start
    · refine List.pairwise_iff_forall_sublist.mp (h (span b).start) ?_
      simpa [hSame] using hPair.filter fun x => (span x).start = (span b).start
    · exact hR a b hSame
  rw [hFilter, hFilter items]
  simp only [filter_start_mergeSort]

/-- The items that are kept follow one another exactly if none is inserted at the start of one that
is kept and listed before it. -/
theorem pairwise_disjoint_iff (hLe : ∀ x ∈ items, (span x).start ≤ (span x).stop) :
    (disjoint span items).Pairwise (fun a b => (span a).Precedes (span b)) ↔
      items.Pairwise fun a b => a ∈ disjoint span items → ¬ (span b).InsertsAt (span a) := by
  have hSame : ∀ a b, (span a).start ≠ (span b).start →
      (a ∈ disjoint span items → ¬ (span b).InsertsAt (span a)) :=
    fun a b hStart _ ⟨_, hInserts, _⟩ => hStart hInserts.symm
  rw [← pairwise_mergeSort_iff hSame]
  have hOrder := pairwise_start_mergeSort span items
  have hSorted : ∀ x ∈ items.mergeSort fun a b => (span a).startsBefore (span b),
      (span x).start ≤ (span x).stop := fun x hx => hLe x (List.mem_mergeSort.mp hx)
  unfold disjoint
  generalize (items.mergeSort fun a b => (span a).startsBefore (span b)) = sorted at *
  cases sorted with
  | nil => simp [keepDisjoint]
  | cons x rest => exact pairwise_keepDisjoint_iff (List.forall_mem_cons.mp hSorted).2 hOrder

/-- The items that are kept follow one another if those that start at the same byte are not
empty. -/
theorem pairwise_disjoint (hLe : ∀ x ∈ items, (span x).start ≤ (span x).stop)
    (hSame : items.Pairwise fun a b => (span a).start = (span b).start →
      (span a).start < (span a).stop ∧ (span b).start < (span b).stop) :
    (disjoint span items).Pairwise fun a b => (span a).Precedes (span b) := by
  refine (pairwise_disjoint_iff hLe).mpr (hSame.imp ?_)
  rintro a b hBoth - ⟨-, hStart, hStop⟩
  have := (hBoth hStart.symm).2
  omega

end

theorem mem_of_mem_disjoint {α : Type} {span : α → Span} {items : List α} {x : α}
    (h : x ∈ disjoint span items) : x ∈ items :=
  List.mem_mergeSort.mp ((keepDisjoint_sublist span none _).subset h)

/-- What holds of any two items, in either order, holds of those that are kept. -/
theorem pairwise_disjoint_of_symm {α : Type} {R : α → α → Prop} (span : α → Span) {items : List α}
    (hSymm : ∀ {a b}, R a b → R b a) (h : items.Pairwise R) : (disjoint span items).Pairwise R :=
  (((List.mergeSort_perm items _).pairwise_iff hSymm).mpr h).sublist (keepDisjoint_sublist ..)

/-- What is left out of items in order of start overlaps one that is kept, or the item kept last
before them. -/
theorem overlaps_of_notMem_keepDisjoint {α : Type} {span : α → Span} {items : List α}
    {last : Option α} {x : α}
    (hOrder : items.Pairwise fun a b => (span a).start ≤ (span b).start)
    (hLast : ∀ a ∈ last, ∀ b ∈ items, (span a).start ≤ (span b).start)
    (hx : x ∈ items) (hOut : x ∉ keepDisjoint span last items) :
    ∃ kept, (kept ∈ last ∨ kept ∈ keepDisjoint span last items) ∧
      (span kept).start ≤ (span x).start ∧ (span kept).overlaps (span x) = true := by
  induction items generalizing last with
  | nil => cases hx
  | cons y rest ih =>
    obtain ⟨hy, hRest⟩ := List.pairwise_cons.mp hOrder
    have hLater : ∀ a ∈ some y, ∀ b ∈ rest, (span a).start ≤ (span b).start := by simpa using hy
    cases last with
    | none =>
      rw [keepDisjoint, List.mem_cons, not_or] at hOut
      have hMem := (List.mem_cons.mp hx).resolve_left hOut.1
      obtain ⟨kept, hKept, hOverlaps⟩ := ih hRest hLater hMem hOut.2
      refine ⟨kept, .inr ?_, hOverlaps⟩
      rw [keepDisjoint]
      simpa [eq_comm] using hKept
    | some a =>
      have hFirst := hLast a rfl
      rw [keepDisjoint] at hOut ⊢
      split at hOut
      · next hSkip =>
        rw [if_pos hSkip]
        rcases List.mem_cons.mp hx with rfl | hMem
        · exact ⟨a, .inl rfl, hFirst x List.mem_cons_self, hSkip⟩
        · exact ih hRest (by simpa using fun b hb => hFirst b (List.mem_cons_of_mem y hb)) hMem hOut
      · next hKeep =>
        rw [if_neg hKeep]
        rw [List.mem_cons, not_or] at hOut
        have hMem := (List.mem_cons.mp hx).resolve_left hOut.1
        obtain ⟨kept, hKept, hOverlaps⟩ := ih hRest hLater hMem hOut.2
        exact ⟨kept, .inr (by simpa [eq_comm] using hKept), hOverlaps⟩

/-- What is left out overlaps an item that is kept and starts no later. -/
theorem overlaps_of_notMem_disjoint {α : Type} {span : α → Span} {items : List α} {x : α}
    (hx : x ∈ items) (hOut : x ∉ disjoint span items) :
    ∃ kept ∈ disjoint span items,
      (span kept).start ≤ (span x).start ∧ (span kept).overlaps (span x) = true := by
  have hNone : ∀ a ∈ (none : Option α), ∀ b ∈ items.mergeSort fun a b =>
      (span a).startsBefore (span b), (span a).start ≤ (span b).start := nofun
  obtain ⟨kept, hKept, hOverlaps⟩ :=
    overlaps_of_notMem_keepDisjoint (pairwise_start_mergeSort span items) hNone
      (List.mem_mergeSort.mpr hx) hOut
  exact ⟨kept, hKept.resolve_left nofun, hOverlaps⟩

/-! ## The text before and the text after -/

/-- The edits are parts of the text, and each one ends before the next one starts. -/
structure Fits (t : Text) (edits : List Edit) : Prop where
  within : ∀ edit ∈ edits, edit.span.Within t
  order : edits.Pairwise fun a b => a.span.Precedes b.span

/-- The second text is the first one, which starts at a byte offset, with the span of each edit
replaced; what lies between the spans is kept. -/
inductive Spliced : Nat → Text → List Edit → Text → Prop
  | nil (offset : Nat) (t : Text) : Spliced offset t [] t
  | edit {offset : Nat} {kept old rest new tail : Text} {edits : List Edit} :
      Spliced (offset + byteLength kept + byteLength old) rest edits tail →
      Spliced offset (kept ++ old ++ rest)
        (⟨⟨offset + byteLength kept, offset + byteLength kept + byteLength old⟩, new⟩ :: edits)
        (kept ++ new ++ tail)

/-- Without an edit the text stays as it is. -/
theorem Spliced.eq_of_nil {offset : Nat} {t output : Text} (h : Spliced offset t [] output) :
    output = t := by
  cases h
  rfl

/-- Edits that fit are spliced in, from any point on that lies before them. -/
theorem spliced_spliceFrom? {t : Text} (front rest : Text) {edits : List Edit}
    (hText : t = front ++ rest)
    (hWithin : ∀ edit ∈ edits, edit.span.Within t)
    (hOrder : edits.Pairwise fun a b => a.span.Precedes b.span)
    (hFront : ∀ edit ∈ edits, byteLength front ≤ edit.span.start) :
    ∃ output, spliceFrom? t (byteLength front) edits = some output ∧
      Spliced (byteLength front) rest edits output := by
  induction edits generalizing front rest with
  | nil =>
    refine ⟨rest, ?_, .nil _ rest⟩
    rw [spliceFrom?]
    exact Text.slice?_of_eq front rest [] (by simpa using hText) rfl
      (by rw [hText, Text.byteLength_append])
  | cons edit edits ih =>
    obtain ⟨span, new⟩ := edit
    obtain ⟨hNext, hRestOrder⟩ := List.pairwise_cons.mp hOrder
    obtain ⟨a, old, c, hCut, rfl⟩ := hWithin _ List.mem_cons_self
    obtain ⟨kept, rfl, hRest⟩ : ∃ kept, a = front ++ kept ∧ rest = kept ++ (old ++ c) := by
      refine Text.append_eq_append_of_byteLength_le ?_ (hFront _ List.mem_cons_self)
      rw [← hText, hCut, List.append_assoc]
    have hLength : byteLength (front ++ kept ++ old) =
        byteLength (front ++ kept) + byteLength old := Text.byteLength_append ..
    obtain ⟨tail, hTail, hSpliced⟩ := ih (front ++ kept ++ old) c hCut
      (fun e he => hWithin e (List.mem_cons_of_mem _ he)) hRestOrder
      (fun e he => hLength ▸ hNext e he)
    refine ⟨kept ++ new ++ tail, ?_, ?_⟩
    · have hKept : t.slice? (byteLength front) (byteLength (front ++ kept)) = some kept :=
        Text.slice?_of_eq front kept (old ++ c)
          (by rw [hCut, List.append_assoc]) rfl (Text.byteLength_append ..)
      rw [hLength] at hTail
      simp only [spliceFrom?, hKept, hTail, Option.bind_eq_bind, Option.bind_some, Option.pure_def]
    · rw [hRest, ← List.append_assoc]
      simp only [Text.byteLength_append] at hSpliced ⊢
      exact .edit hSpliced

/-- Edits that fit are all applied. -/
theorem Fits.applyEdits?_eq_some {t : Text} {edits : List Edit} (h : Fits t edits) :
    disjoint Edit.span edits = edits ∧
      ∃ output, applyEdits? t edits = some output ∧ Spliced 0 t edits output := by
  have hDisjoint : disjoint Edit.span edits = edits :=
    disjoint_eq_self h.order fun edit hEdit => (h.within edit hEdit).start_le_stop
  obtain ⟨output, hOutput, hSpliced⟩ := spliced_spliceFrom? [] t rfl
    h.within h.order (fun _ _ => Nat.zero_le _)
  refine ⟨hDisjoint, output, ?_, hSpliced⟩
  rw [applyEdits?, hDisjoint]
  exact hOutput

theorem spliced_applyEdits {t : Text} {edits : List Edit} (h : Fits t edits) :
    Spliced 0 t edits (applyEdits t edits) := by
  obtain ⟨-, output, hApply, hSpliced⟩ := h.applyEdits?_eq_some
  rw [applyEdits, hApply]
  exact hSpliced

/-! ## Cuts -/

/-- Edits that start behind a cut leave what is before it. -/
theorem Spliced.keep_front {offset : Nat} {a c output : Text} {edits : List Edit}
    (h : Spliced offset (a ++ c) edits output)
    (hBehind : ∀ edit ∈ edits, offset + byteLength a ≤ edit.span.start) :
    ∃ tail, output = a ++ tail ∧ Spliced (offset + byteLength a) c edits tail := by
  generalize hText : a ++ c = t at h
  cases h with
  | nil => exact ⟨c, hText.symm, .nil _ c⟩
  | @edit _ kept old rest new tail edits h =>
    have hStart := hBehind _ List.mem_cons_self
    obtain ⟨k, rfl, rfl⟩ : ∃ k, kept = a ++ k ∧ c = k ++ (old ++ rest) :=
      Text.append_eq_append_of_byteLength_le (by rw [hText, List.append_assoc])
        (by simpa using hStart)
    refine ⟨k ++ new ++ tail, by simp, ?_⟩
    rw [Text.byteLength_append, ← Nat.add_assoc] at h ⊢
    rw [← List.append_assoc]
    exact .edit h

/-- A cut that no edit goes over cuts the text before and the text after. -/
theorem Spliced.cut {offset : Nat} {a c output : Text} {before after : List Edit}
    (h : Spliced offset (a ++ c) (before ++ after) output)
    (hBefore : ∀ edit ∈ before, edit.span.stop ≤ offset + byteLength a)
    (hAfter : ∀ edit ∈ after, offset + byteLength a ≤ edit.span.start) :
    ∃ front back, output = front ++ back ∧ Spliced offset a before front ∧
      Spliced (offset + byteLength a) c after back := by
  induction before generalizing offset a output with
  | nil =>
    obtain ⟨tail, hOutput, hTail⟩ := h.keep_front hAfter
    exact ⟨a, tail, hOutput, .nil _ a, hTail⟩
  | cons edit before ih =>
    generalize hText : a ++ c = t at h
    cases h with
    | @edit _ kept old rest new tail _ h =>
      have hStop := hBefore _ List.mem_cons_self
      obtain ⟨k, rfl, rfl⟩ : ∃ k, a = (kept ++ old) ++ k ∧ rest = k ++ c :=
        Text.append_eq_append_of_byteLength_le hText.symm
          (by rw [Text.byteLength_append]; dsimp only at hStop; omega)
      have hLength : offset + byteLength (kept ++ old ++ k) =
          offset + byteLength kept + byteLength old + byteLength k := by
        simp only [Text.byteLength_append]
        omega
      rw [hLength] at hBefore hAfter ⊢
      obtain ⟨front, back, rfl, hFront, hBack⟩ :=
        ih h (fun e he => hBefore e (List.mem_cons_of_mem _ he)) hAfter
      exact ⟨kept ++ new ++ front, back, by simp, .edit hFront, hBack⟩

/-- Edits none of which reaches into a range are those before it and those behind it. -/
theorem Fits.split {t : Text} {edits : List Edit} (h : Fits t edits) {m n : Nat}
    (hApart : ∀ edit ∈ edits, edit.span.stop ≤ m ∨ n ≤ edit.span.start) :
    ∃ before after, edits = before ++ after ∧ (∀ edit ∈ before, edit.span.stop ≤ m) ∧
      ∀ edit ∈ after, n ≤ edit.span.start := by
  obtain ⟨hWithin, hOrder⟩ := h
  induction edits with
  | nil => exact ⟨[], [], rfl, by simp, by simp⟩
  | cons edit edits ih =>
    obtain ⟨hNext, hRest⟩ := List.pairwise_cons.mp hOrder
    rcases hApart edit List.mem_cons_self with hStop | hStart
    · obtain ⟨before, after, rfl, hBefore, hAfter⟩ :=
        ih (fun e he => hApart e (List.mem_cons_of_mem _ he))
          (fun e he => hWithin e (List.mem_cons_of_mem _ he)) hRest
      exact ⟨edit :: before, after, rfl, List.forall_mem_cons.mpr ⟨hStop, hBefore⟩, hAfter⟩
    · refine ⟨[], edit :: edits, rfl, by simp, List.forall_mem_cons.mpr ⟨hStart, ?_⟩⟩
      intro e he
      have hLe := (hWithin edit List.mem_cons_self).start_le_stop
      exact Nat.le_trans hStart (Nat.le_trans hLe (hNext e he))

end AssetLoom
