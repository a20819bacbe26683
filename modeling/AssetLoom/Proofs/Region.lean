import AssetLoom.Compiler.Plan
import AssetLoom.Proofs.Spans

/-!
# The regions of a plan

The regions that a pass replaces are parts of the text, and each one ends before the next one
starts. So the edits of a pass fit the text, whatever they write (`fits_plan`).
-/

namespace AssetLoom

open Text (byteLength)

/-- What is planned for a directive is the directive, and either its address or, for a tag, all of
it. -/
theorem Planned.ofDirective?_eq_some {referrer : String} {directive : Directive}
    {planned : Planned} (h : Planned.ofDirective? referrer directive = some planned) :
    planned.directive = directive ∧ (planned.region = directive.addressSpan ∨
      planned.region = directive.span ∧ directive.kind.isEmbed = true) := by
  unfold ofDirective? at h
  split at h
  · next key inline hResolve =>
    cases h
    refine ⟨rfl, ?_⟩
    dsimp only
    split
    · next hSwallows =>
      right
      refine ⟨rfl, ?_⟩
      simp only [Bool.and_eq_true, Bool.or_eq_true, beq_iff_eq] at hSwallows
      rcases hSwallows.2 with hKind | hKind <;> rw [hKind] <;> rfl
    · exact .inl rfl
  · cases h

namespace Directive.Stands

variable {t : Text} {a b : Directive}

/-- No address is put between angle brackets. -/
theorem quote_ne_bracket {kind : DirectiveKind} {quote : Char}
    (h : quote ∈ (attributeForm kind).quotes) : quote ≠ '<' := by
  rcases quote_cases h with rfl | ⟨rfl, -⟩ <;> decide

/-- An address that starts where a tag starts is not empty: behind an empty one stands a quote,
and a tag starts with an angle bracket. -/
theorem address_nonempty (ha : Stands t a) (hb : Stands t b) (hEmbed : a.kind.isEmbed = true)
    (hStart : a.span.start = b.addressSpan.start) :
    b.addressSpan.start < b.addressSpan.stop := by
  obtain ⟨front, cut, behind, hText, hEq, -, hHead⟩ := ha
  obtain ⟨front', cut', behind', hText', hEq', hAttributed', -⟩ := hb
  obtain ⟨rest, hTail⟩ := hAttributed'.tail
  have hStop : b.addressSpan.stop = b.addressSpan.start + byteLength cut'.address := by
    rw [hEq']
    rfl
  suffices hNonempty : byteLength cut'.address ≠ 0 by omega
  intro hZero
  rw [Text.byteLength_eq_zero] at hZero
  have hMeet : cut.text ++ behind = cut'.tail ++ behind' := by
    refine (Text.append_inj_of_byteLength (a := front) (c := front' ++ cut'.lead) ?_ ?_).2
    · rw [← List.append_assoc, ← hText, hText', Cut.text, hZero]
      simp
    · rw [hEq, hEq'] at hStart
      simpa [ofCut] using hStart
  have hFirst := congrArg List.head? hMeet
  rw [List.head?_append, hHead hEmbed, hTail] at hFirst
  exact quote_ne_bracket hAttributed'.quote_mem (Option.some.inj hFirst).symm

end Directive.Stands

/-- What is planned stands in the text: its region is the address of a directive of the pass or
all of a tag. -/
theorem Planned.region_cases {t : Text} {pass : Pass} {referrer : String} {planned : Planned}
    (h : planned ∈ (Directive.scan pass t).filterMap (Planned.ofDirective? referrer)) :
    planned.directive ∈ Directive.scan pass t ∧ planned.directive.Stands t ∧
      (planned.region = planned.directive.addressSpan ∨
        planned.region = planned.directive.span ∧ planned.directive.kind.isEmbed = true) := by
  obtain ⟨directive, hMem, hPlanned⟩ := List.mem_filterMap.mp h
  obtain ⟨rfl, hRegion⟩ := Planned.ofDirective?_eq_some hPlanned
  exact ⟨hMem, Directive.stands_of_mem_scan hMem, hRegion⟩

/-- The region of what is planned is a part of the text. -/
theorem plan_within {t : Text} {pass : Pass} {referrer : String} {planned : Planned}
    (h : planned ∈ plan t pass referrer) : planned.region.Within t := by
  obtain ⟨-, hStands, hRegion | ⟨hRegion, -⟩⟩ := Planned.region_cases (mem_of_mem_disjoint h)
  · exact hRegion ▸ hStands.addressSpan_within
  · exact hRegion ▸ hStands.span_within

/-- Regions that start at the same byte are not empty. -/
theorem pairwise_region_start (t : Text) (pass : Pass) (referrer : String) :
    ((Directive.scan pass t).filterMap (Planned.ofDirective? referrer)).Pairwise fun a b =>
      a.region.start = b.region.start →
        a.region.start < a.region.stop ∧ b.region.start < b.region.stop := by
  rw [List.pairwise_filterMap]
  refine (Directive.pairwise_scan pass t).imp_of_mem ?_
  intro a b ha hb hStart p hp q hq hSame
  have hA := Directive.stands_of_mem_scan ha
  have hB := Directive.stands_of_mem_scan hb
  have hInA := hA.addressSpan_inside
  have hInB := hB.addressSpan_inside
  have hLeA := hA.addressSpan_within.start_le_stop
  have hLeB := hB.addressSpan_within.start_le_stop
  obtain ⟨-, hP | ⟨hP, hEmbed⟩⟩ := Planned.ofDirective?_eq_some hp
  · obtain ⟨-, hQ | ⟨hQ, hEmbed⟩⟩ := Planned.ofDirective?_eq_some hq
    · rw [hP, hQ] at hSame
      exact absurd hSame hStart
    · rw [hP, hQ] at hSame ⊢
      exact ⟨hB.address_nonempty hA hEmbed hSame.symm, by omega⟩
  · obtain ⟨-, hQ | ⟨hQ, -⟩⟩ := Planned.ofDirective?_eq_some hq
    · rw [hP, hQ] at hSame ⊢
      exact ⟨by omega, hA.address_nonempty hB hEmbed hSame⟩
    · rw [hP, hQ]
      exact ⟨by omega, by omega⟩

/-- The regions of a plan follow one another. -/
theorem pairwise_plan (t : Text) (pass : Pass) (referrer : String) :
    (plan t pass referrer).Pairwise fun a b => a.region.Precedes b.region := by
  refine pairwise_disjoint ?_ (pairwise_region_start t pass referrer)
  intro planned hPlanned
  obtain ⟨-, hStands, hRegion | ⟨hRegion, -⟩⟩ := Planned.region_cases hPlanned
  · exact hRegion ▸ hStands.addressSpan_within.start_le_stop
  · exact hRegion ▸ hStands.span_within.start_le_stop

/-- Whatever is written in the place of the regions of a plan, the edits fit the text. -/
theorem fits_plan (t : Text) (pass : Pass) (referrer : String) (replacement : Planned → Text) :
    Fits t ((plan t pass referrer).map fun planned =>
      ⟨planned.region, replacement planned⟩) where
  within := by
    intro edit hEdit
    obtain ⟨planned, hPlanned, rfl⟩ := List.mem_map.mp hEdit
    exact plan_within hPlanned
  order := List.pairwise_map.mpr (pairwise_plan t pass referrer)

end AssetLoom
