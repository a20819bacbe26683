import AssetLoom.Proofs.Splice

/-!
# Edits in any order

Edits are applied in order of start, and one that overlaps another is left out. If their spans are
parts of the text, this gives a text in all cases but one (`applyEdits?_isSome_iff`): an empty span
at the start of another one does not overlap it, so an insertion that is listed behind the
replacement of the text at its place is not left out, although the text there has been replaced
already (`insertion_behind_replacement`).

Edits that replace something and do not overlap have the same effect in every order, and the same
as one edit after the other from the last one on (`applyEdits?_eq_applyEach?`).
-/

namespace AssetLoom

open Text (byteLength)

theorem Text.le_of_slice?_eq_some {t part : Text} {start stop : Nat}
    (h : t.slice? start stop = some part) : start ≤ stop := by
  unfold slice? at h
  split at h
  · assumption
  · cases h

/-- Edits that are spliced in follow one another. -/
theorem pairwise_of_spliceFrom? {t output : Text} {cursor : Nat} {edits : List Edit}
    (hLe : ∀ edit ∈ edits, edit.span.start ≤ edit.span.stop)
    (h : spliceFrom? t cursor edits = some output) :
    edits.Pairwise (fun a b => a.span.Precedes b.span) ∧
      ∀ edit ∈ edits, cursor ≤ edit.span.start := by
  induction edits generalizing cursor output with
  | nil => simp
  | cons edit edits ih =>
    obtain ⟨hLeEdit, hLeRest⟩ := List.forall_mem_cons.mp hLe
    simp only [spliceFrom?, Option.bind_eq_bind, Option.bind_eq_some_iff] at h
    obtain ⟨kept, hKept, tail, hTail, -⟩ := h
    have hCursor := Text.le_of_slice?_eq_some hKept
    obtain ⟨hOrder, hBehind⟩ := ih hLeRest hTail
    refine ⟨List.pairwise_cons.mpr ⟨hBehind, hOrder⟩, List.forall_mem_cons.mpr ⟨hCursor, ?_⟩⟩
    intro later hLater
    exact Nat.le_trans hCursor (Nat.le_trans hLeEdit (hBehind later hLater))

/-- Edits of parts of a text, in any order, are applied without fail exactly if no insertion is
listed behind the replacement, with the same start, of a text that is not empty. Those that are
applied follow one another, and nothing else is changed. -/
theorem applyEdits?_isSome_iff {t : Text} {edits : List Edit}
    (hWithin : ∀ edit ∈ edits, edit.span.Within t) :
    let applied := disjoint Edit.span edits
    ((applyEdits? t edits).isSome = true ↔
        edits.Pairwise fun a b => a ∈ applied → ¬ b.span.InsertsAt a.span) ∧
      ∀ output, applyEdits? t edits = some output →
        applied.Pairwise (fun a b => a.span.Precedes b.span) ∧ Spliced 0 t applied output := by
  intro applied
  have hApplied : ∀ edit ∈ applied, edit.span.Within t :=
    fun edit hEdit => hWithin edit (mem_of_mem_disjoint hEdit)
  have hOrder := pairwise_disjoint_iff fun edit hEdit => (hWithin edit hEdit).start_le_stop
  have hFollow : ∀ output, applyEdits? t edits = some output →
      applied.Pairwise fun a b => a.span.Precedes b.span := fun output hOutput =>
    (pairwise_of_spliceFrom? (fun edit hEdit => (hApplied edit hEdit).start_le_stop) hOutput).1
  have hSplice : (applied.Pairwise fun a b => a.span.Precedes b.span) →
      ∃ output, applyEdits? t edits = some output ∧ Spliced 0 t applied output := fun hFollow =>
    spliced_spliceFrom? [] t rfl hApplied hFollow fun _ _ => Nat.zero_le _
  refine ⟨⟨fun hSome => ?_, fun hNone => ?_⟩, fun output hOutput => ?_⟩
  · obtain ⟨output, hOutput⟩ := Option.isSome_iff_exists.mp hSome
    exact hOrder.mp (hFollow output hOutput)
  · obtain ⟨output, hOutput, -⟩ := hSplice (hOrder.mpr hNone)
    exact Option.isSome_of_eq_some hOutput
  · obtain ⟨output', hOutput', hSpliced⟩ := hSplice (hFollow output hOutput)
    obtain rfl : output' = output := Option.some.inj (hOutput'.symm.trans hOutput)
    exact ⟨hFollow output' hOutput, hSpliced⟩

/-- An insertion is listed before the replacement at the same place, and an edit is left out. -/
theorem applyEdits?_isSome_iff_insertion :
    let t := "häuser".toList
    let edits : List Edit := [⟨⟨3, 5⟩, ['x']⟩, ⟨⟨1, 1⟩, ['y']⟩, ⟨⟨1, 3⟩, ['z']⟩, ⟨⟨4, 6⟩, ['w']⟩]
    let applied : List Edit := [⟨⟨1, 1⟩, ['y']⟩, ⟨⟨1, 3⟩, ['z']⟩, ⟨⟨3, 5⟩, ['x']⟩]
    (∀ edit ∈ edits, edit.span.Within t) ∧ disjoint Edit.span edits = applied ∧
      applyEdits? t edits = some "hyzxer".toList ∧
      applied.Pairwise (fun a b => a.span.Precedes b.span) ∧
      Spliced 0 t applied "hyzxer".toList := by
  intro t edits applied
  have hWithin : ∀ edit ∈ edits, edit.span.Within t := by
    simp only [edits, List.forall_mem_cons, List.not_mem_nil, false_imp_iff, implies_true, and_true]
    exact ⟨⟨"hä".toList, "us".toList, "er".toList, rfl, rfl⟩,
      ⟨"h".toList, [], "äuser".toList, rfl, rfl⟩,
      ⟨"h".toList, "ä".toList, "user".toList, rfl, rfl⟩,
      ⟨"häu".toList, "se".toList, "r".toList, rfl, rfl⟩⟩
  have hApplied : disjoint Edit.span edits = applied := by
    simp [disjoint, edits, applied, List.mergeSort, List.MergeSort.Internal.splitInTwo,
      Span.startsBefore, keepDisjoint, Span.overlaps]
  have hOutput : applyEdits? t edits = some "hyzxer".toList := by
    rw [applyEdits?, hApplied]
    decide +kernel
  have hAll := (applyEdits?_isSome_iff hWithin).2 _ hOutput
  rw [hApplied] at hAll
  exact ⟨hWithin, hApplied, hOutput, hAll⟩

/-- An insertion that is listed behind the replacement at the same place is not left out, and there
is no edited text. -/
theorem insertion_behind_replacement :
    let t := "abcdef".toList
    let edits : List Edit := [⟨⟨2, 5⟩, ['x']⟩, ⟨⟨2, 2⟩, ['y']⟩]
    (∀ edit ∈ edits, edit.span.Within t) ∧ disjoint Edit.span edits = edits ∧
      ¬ edits.Pairwise (fun a b => a.span.Precedes b.span) ∧ applyEdits? t edits = none := by
  intro t edits
  have hApplied : disjoint Edit.span edits = edits := by
    rw [disjoint, List.mergeSort_of_pairwise (by decide)]
    decide
  have hOutput : applyEdits? t edits = none := by
    rw [applyEdits?, hApplied]
    decide +kernel
  refine ⟨?_, hApplied, by simp [edits, Span.Precedes], hOutput⟩
  simp only [edits, List.forall_mem_cons, List.not_mem_nil, false_imp_iff, implies_true, and_true]
  exact ⟨⟨"ab".toList, "cde".toList, "f".toList, rfl, rfl⟩,
    ⟨"ab".toList, [], "cdef".toList, rfl, rfl⟩⟩

/-! ## One edit at a time -/

/-- The text with the span of one edit replaced. -/
def Edit.splice? (edit : Edit) (t : Text) : Option Text := do
  let front ← t.slice? 0 edit.span.start
  let back ← t.slice? edit.span.stop t.byteLength
  return front ++ edit.replacement ++ back

/-- One edit after the other, each in the text that the ones before it have left. -/
def applyEach? (t : Text) (edits : List Edit) : Option Text :=
  edits.foldlM (fun t edit => edit.splice? t) t

theorem Edit.splice?_append (front old new back : Text) :
    Edit.splice? ⟨⟨byteLength front, byteLength front + byteLength old⟩, new⟩
        (front ++ old ++ back) =
      some (front ++ new ++ back) := by
  have hFront : (front ++ old ++ back).slice? 0 (byteLength front) = some front :=
    Text.slice?_of_eq [] front (old ++ back) (by simp) rfl (by simp)
  have hBack : (front ++ old ++ back).slice? (byteLength front + byteLength old)
      (byteLength (front ++ old ++ back)) = some back :=
    Text.slice?_of_eq (front ++ old) back [] (by simp) (by simp) (by simp [Nat.add_assoc])
  simp only [splice?, hFront, hBack, Option.bind_eq_bind, Option.bind_some, Option.pure_def]

/-- Edits in order are made one at a time from the last one on: what is in front of an edit is
still as it was when its turn comes. -/
theorem Spliced.applyEach?_reverse {offset : Nat} {t output : Text} {edits : List Edit}
    (h : Spliced offset t edits output) (front : Text) (hFront : byteLength front = offset) :
    applyEach? (front ++ t) edits.reverse = some (front ++ output) := by
  induction h generalizing front with
  | nil => rfl
  | @edit offset kept old rest new tail edits _ ih =>
    have hTail := ih (front ++ kept ++ old) (by simp [hFront, Nat.add_assoc])
    have hLast := Edit.splice?_append (front ++ kept) old new tail
    rw [Text.byteLength_append, hFront] at hLast
    rw [applyEach?] at hTail ⊢
    have hText : front ++ (kept ++ old ++ rest) = front ++ kept ++ old ++ rest := by simp
    rw [List.reverse_cons, List.foldlM_append, hText, hTail]
    simpa using hLast

/-- What an edit puts in has the text before it, with the edits before it, in front, and the text
behind it, with the edits behind it, at its back. -/
theorem Spliced.around {offset : Nat} {t output : Text} {before after : List Edit} {edit : Edit}
    (h : Spliced offset t (before ++ edit :: after) output) :
    ∃ a old c front back, t = a ++ old ++ c ∧
      edit.span = ⟨offset + byteLength a, offset + byteLength a + byteLength old⟩ ∧
      output = front ++ edit.replacement ++ back ∧
      Spliced offset a before front ∧ Spliced edit.span.stop c after back := by
  induction before generalizing offset t output with
  | nil =>
    cases h with
    | @edit _ kept old rest new tail _ h =>
      exact ⟨kept, old, rest, kept, tail, rfl, rfl, rfl, .nil _ kept, h⟩
  | cons first before ih =>
    cases h with
    | @edit _ kept old rest new tail _ h =>
      obtain ⟨a, replaced, c, front, back, rfl, hSpan, rfl, hBefore, hAfter⟩ := ih h
      refine ⟨kept ++ old ++ a, replaced, c, kept ++ new ++ front, back, by simp, ?_, by simp,
        .edit hBefore, hAfter⟩
      rw [hSpan]
      simp [Nat.add_assoc]

section

variable {α : Type} {span : α → Span} {items items' : List α}
  (hNonempty : ∀ x ∈ items, (span x).start < (span x).stop)
  (hApart : items.Pairwise fun a b => (span a).overlaps (span b) = false)
include hNonempty hApart

/-- Items that are not empty and do not overlap follow one another once they are in order. -/
theorem pairwise_precedes_mergeSort :
    (items.mergeSort fun a b => (span a).startsBefore (span b)).Pairwise
      fun a b => (span a).Precedes (span b) := by
  have hSymm : ∀ {a b : α}, (span a).overlaps (span b) = false →
      (span b).overlaps (span a) = false := fun h => (Span.overlaps_comm _ _).trans h
  have hSorted := ((List.mergeSort_perm items
    fun a b => (span a).startsBefore (span b)).pairwise_iff hSymm).mpr hApart
  refine (hSorted.and (pairwise_start_mergeSort span items)).imp_of_mem ?_
  rintro a b - hb ⟨hOverlaps, hStart⟩
  have hLater := hNonempty b (List.mem_mergeSort.mp hb)
  rcases Span.precedes_or_insertsAt hStart (Nat.le_of_lt hLater) hOverlaps with h | h
  · exact h
  · obtain ⟨-, hSame, hStop⟩ := h
    omega

/-- None of them is left out. -/
theorem disjoint_eq_mergeSort :
    disjoint span items = items.mergeSort fun a b => (span a).startsBefore (span b) :=
  keepDisjoint_eq_self (pairwise_precedes_mergeSort hNonempty hApart) nofun

/-- The order in which they are listed does not matter. -/
theorem disjoint_eq_of_perm (hPerm : items'.Perm items) :
    disjoint span items' = disjoint span items := by
  have hNonempty' : ∀ x ∈ items', (span x).start < (span x).stop :=
    fun x hx => hNonempty x (hPerm.mem_iff.mp hx)
  have hApart' : items'.Pairwise fun a b => (span a).overlaps (span b) = false :=
    (hPerm.pairwise_iff fun h => (Span.overlaps_comm _ _).trans h).mpr hApart
  rw [disjoint_eq_mergeSort hNonempty hApart, disjoint_eq_mergeSort hNonempty' hApart']
  apply List.Perm.eq_of_pairwise ?_ (pairwise_precedes_mergeSort hNonempty' hApart')
    (pairwise_precedes_mergeSort hNonempty hApart)
  · exact ((List.mergeSort_perm ..).trans hPerm).trans (List.mergeSort_perm ..).symm
  · -- Two items cannot both come first, as neither is empty.
    intro a b ha hb hab hba
    have hA := hNonempty' a (List.mem_mergeSort.mp ha)
    have hB := hNonempty b (List.mem_mergeSort.mp hb)
    unfold Span.Precedes at hab hba
    omega

end

/-- Edits that replace something and do not overlap are all applied, to the same effect in
whatever order they are listed, and that effect is the one of making them one at a time from the
last one on. Nothing outside their spans is changed, and what one edit puts in does not depend on
the others. -/
theorem applyEdits?_eq_applyEach? {t : Text} {edits : List Edit}
    (hWithin : ∀ edit ∈ edits, edit.span.Within t)
    (hNonempty : ∀ edit ∈ edits, edit.span.start < edit.span.stop)
    (hApart : edits.Pairwise fun a b => a.span.overlaps b.span = false) :
    ∃ ascending output, ascending.Perm edits ∧
      ascending.Pairwise (fun a b => a.span.Precedes b.span) ∧
      (∀ edits' : List Edit, edits'.Perm edits → applyEdits? t edits' = some output) ∧
      applyEach? t ascending.reverse = some output ∧
      Spliced 0 t ascending output ∧
      ∀ before edit after, ascending = before ++ edit :: after →
        ∃ a old c front back, t = a ++ old ++ c ∧
          edit.span = ⟨byteLength a, byteLength a + byteLength old⟩ ∧
          output = front ++ edit.replacement ++ back ∧
          Spliced 0 a before front ∧ Spliced edit.span.stop c after back := by
  have hPerm : (disjoint Edit.span edits).Perm edits := by
    rw [disjoint_eq_mergeSort hNonempty hApart]
    exact List.mergeSort_perm ..
  have hFits : Fits t (disjoint Edit.span edits) := by
    refine ⟨fun edit hEdit => hWithin edit (mem_of_mem_disjoint hEdit), ?_⟩
    rw [disjoint_eq_mergeSort hNonempty hApart]
    exact pairwise_precedes_mergeSort hNonempty hApart
  obtain ⟨output, hOutput, hSpliced⟩ := spliced_spliceFrom? [] t rfl hFits.within hFits.order
    fun _ _ => Nat.zero_le _
  refine ⟨disjoint Edit.span edits, output, hPerm, hFits.order, ?_, ?_, hSpliced, ?_⟩
  · intro edits' hEdits
    rw [applyEdits?, disjoint_eq_of_perm hNonempty hApart hEdits]
    exact hOutput
  · exact hSpliced.applyEach?_reverse [] rfl
  · intro before edit after hCut
    rw [hCut] at hSpliced
    simpa using hSpliced.around

/-- Two of the edits touch, and one of them puts in the text that another one replaces. -/
theorem applyEdits?_eq_applyEach?_greeting :
    let t := "häuser".toList
    let edits : List Edit := [⟨⟨3, 5⟩, "ä".toList⟩, ⟨⟨0, 1⟩, "us".toList⟩, ⟨⟨5, 6⟩, []⟩]
    (∀ edit ∈ edits, edit.span.Within t) ∧
      (∀ edit ∈ edits, edit.span.start < edit.span.stop) ∧
      edits.Pairwise (fun a b => a.span.overlaps b.span = false) ∧
      (∀ edits' : List Edit, edits'.Perm edits → applyEdits? t edits' = some "usäär".toList) ∧
      applyEach? t [⟨⟨5, 6⟩, []⟩, ⟨⟨3, 5⟩, "ä".toList⟩, ⟨⟨0, 1⟩, "us".toList⟩] =
        some "usäär".toList := by
  intro t edits
  have hWithin : ∀ edit ∈ edits, edit.span.Within t := by
    simp only [edits, List.forall_mem_cons, List.not_mem_nil, false_imp_iff, implies_true, and_true]
    exact ⟨⟨"hä".toList, "us".toList, "er".toList, rfl, rfl⟩,
      ⟨[], "h".toList, "äuser".toList, rfl, rfl⟩,
      ⟨"häus".toList, "e".toList, "r".toList, rfl, rfl⟩⟩
  have hNonempty : ∀ edit ∈ edits, edit.span.start < edit.span.stop := by decide
  have hApart : edits.Pairwise fun a b => a.span.overlaps b.span = false := by decide
  have hEach : applyEach? t [⟨⟨5, 6⟩, []⟩, ⟨⟨3, 5⟩, "ä".toList⟩, ⟨⟨0, 1⟩, "us".toList⟩] =
      some "usäär".toList := by decide +kernel
  have hApplied : disjoint Edit.span edits =
      [⟨⟨0, 1⟩, "us".toList⟩, ⟨⟨3, 5⟩, "ä".toList⟩, ⟨⟨5, 6⟩, []⟩] := by
    simp [disjoint, edits, List.mergeSort, List.MergeSort.Internal.splitInTwo, Span.startsBefore,
      keepDisjoint, Span.overlaps]
  have hOutput : applyEdits? t edits = some "usäär".toList := by
    rw [applyEdits?, hApplied]
    decide +kernel
  obtain ⟨-, output, -, -, hAll, -⟩ := applyEdits?_eq_applyEach? hWithin hNonempty hApart
  obtain rfl : output = "usäär".toList :=
    Option.some.inj ((hAll edits (.refl edits)).symm.trans hOutput)
  exact ⟨hWithin, hNonempty, hApart, hAll, hEach⟩

end AssetLoom
