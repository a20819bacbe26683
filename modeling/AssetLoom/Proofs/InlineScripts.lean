import AssetLoom.Proofs.Scanning

/-!
# Scripts without a source

A `<script` tag without the attribute `src` is no directive, so the scan goes on behind its name as
if the tag were text (`passesOver_inlineScript`). Its body is searched like the rest of the page:
a directive starts in it exactly if one does when the tag in front is left out
(`embedsIn_inlineBody`), as `image_in_inlineBody` shows.
-/

namespace AssetLoom.Directive

open Text (byteLength)

/-- Without the attribute before the end of the tag, the search for it fails. -/
theorem Tag.findAttribute?_eq_none {tag : Tag} {finish : Text → Option Text} {attrs rest : Text}
    (hSource : ∀ x y, attrs = x ++ y → ¬ tag.form.Begins y) :
    findAttribute? tag.form finish (attrs ++ '>' :: rest) = none := by
  rw [Option.eq_none_iff_forall_ne_some]
  intro cut hFind
  obtain ⟨front, behind, inner, hText, hFront, -, hCut, -⟩ := findAttribute?_eq_some_iff.mp hFind
  obtain ⟨y, hSplit, rfl⟩ := Text.append_eq_append_cons hFront hText.symm
  have hBegins := AttributeForm.Begins.of_cutAttribute? hCut
  cases y with
  | nil =>
    obtain ⟨blank, written, value, hBlank, -, hName⟩ := hBegins
    have hMark : '>' = blank := (List.cons.inj hName).1
    rw [← hMark] at hBlank
    revert hBlank
    decide
  | cons c y =>
    have hAll : tag.form.name.all (fun n => !tag.form.same n '>') = true := by
      cases tag <;> decide
    have hName : ∀ n ∈ tag.form.name, tag.form.same n '>' = false := by simpa using hAll
    have hEquals : '>' ≠ '=' := by decide
    exact hSource front (c :: y) hSplit (hBegins.of_append hEquals hName (by simp))

/-- The scan goes over the name of a script tag without a source. -/
theorem passesOver_inlineScript {attrs rest : Text}
    (hSource : ∀ x y, attrs = x ++ y → ¬ Tag.script.form.Begins y) :
    PassesOver readEmbed "<script".toList (attrs ++ '>' :: rest) := by
  have hName : List.Forall₂ (fun n c => inAnyCase n c = true) Tag.script.name "script".toList :=
    List.forall₂_same.mpr (List.all_eq_true.mp (by decide))
  have hScript : Tag.script.cut? ('<' :: ("script".toList ++ (attrs ++ '>' :: rest))) = none := by
    rw [Tag.cut?, stripName?_append hName]
    simp only [Tag.findAttribute?_eq_none hSource, Option.map_none, ite_self]
  have hOther : ∀ tag : Tag, tag ≠ .script →
      tag.cut? ('<' :: ("script".toList ++ (attrs ++ '>' :: rest))) = none := by
    intro tag hTag
    cases tag with
    | script => exact absurd rfl hTag
    | _ => rfl
  refine PassesOver.cons ?_ (passesOver_of_notMem (by decide) _)
  show readEmbed ('<' :: ("script".toList ++ (attrs ++ '>' :: rest))) = none
  rw [readEmbed, hScript, hOther .link (by decide), hOther .image (by decide)]
  rfl

/-- Some tag that embeds a resource starts in the bytes of the span. -/
def EmbedsIn (t : Text) (span : Span) : Prop :=
  ∃ found ∈ scanEmbeds t, span.start ≤ found.span.start ∧ found.span.start < span.stop

theorem embedsIn_front_iff {front rest : Text} :
    EmbedsIn (front ++ rest) ⟨0, byteLength front⟩ ↔ ¬ PassesOver readEmbed front rest := by
  rw [passesOver_iff 0, EmbedsIn, scanEmbeds]
  simp

/-- A directive starts in the body of a script without a source only if one does when the opening
tag and all before it are left out. The converse holds as well, unless a directive that starts in
the attributes takes the body along. -/
theorem embedsIn_inlineBody {pre attrs body post : Text} (hPre : '<' ∉ pre)
    (hSource : ∀ x y, attrs = x ++ y → ¬ Tag.script.form.Begins y) :
    let opening := pre ++ "<script".toList ++ attrs ++ ['>']
    let closing := "</script>".toList ++ post
    let span : Span := ⟨byteLength opening, byteLength opening + byteLength body⟩
    (EmbedsIn (opening ++ (body ++ closing)) span →
        EmbedsIn (body ++ closing) ⟨0, byteLength body⟩) ∧
      ('<' ∉ attrs → EmbedsIn (body ++ closing) ⟨0, byteLength body⟩ →
        EmbedsIn (opening ++ (body ++ closing)) span) := by
  intro opening closing span
  rw [embedsIn_front_iff]
  constructor
  · rintro ⟨found, hFound, hStart, hStop⟩ hPasses
    obtain ⟨x, y, kind, cut, hText, -, hRead, rfl⟩ := exists_read_of_mem_scanFrom hFound
    simp only [ofCut, Nat.zero_add, span] at hStart hStop
    obtain ⟨front, rfl, hRest⟩ := Text.append_eq_append_of_byteLength_le hText hStart
    rw [Text.byteLength_append, Nat.add_lt_add_iff_left] at hStop
    obtain ⟨tail, rfl, rfl⟩ := Text.append_eq_append_of_byteLength_le hRest.symm hStop.le
    have hNonempty : tail ≠ [] := by
      rintro rfl
      simp at hStop
    rw [hPasses front tail rfl hNonempty] at hRead
    cases hRead
  · intro hAttrs hBody
    have hTag : PassesOver readEmbed ("<script".toList ++ (attrs ++ ['>'])) (body ++ closing) := by
      refine .append ?_ (passesOver_of_notMem (by simp [hAttrs]) _)
      simpa using passesOver_inlineScript hSource
    have hOpening : PassesOver readEmbed opening (body ++ closing) := by
      have := (passesOver_of_notMem hPre _).append hTag
      simpa [opening] using this
    rw [passesOver_iff (byteLength opening)] at hBody
    push Not at hBody
    obtain ⟨found, hFound, hStop⟩ := hBody
    have hWhole : found ∈ scanEmbeds (opening ++ (body ++ closing)) := by
      rw [scanEmbeds, hOpening.scanFrom_eq, Nat.zero_add]
      exact hFound
    obtain ⟨x, y, kind, cut, -, -, -, rfl⟩ := exists_read_of_mem_scanFrom hFound
    exact ⟨_, hWhole, Nat.le_add_right .., hStop⟩

/-- A comparison in the body is left alone. -/
theorem embedsIn_inlineBody_comparison :
    let opening := "a".toList ++ "<script".toList ++ " id".toList ++ ['>']
    let closing := "</script>".toList ++ []
    let span : Span := ⟨byteLength opening, byteLength opening + 6⟩
    '<' ∉ "a".toList ∧ (∀ x y, " id".toList = x ++ y → ¬ Tag.script.form.Begins y) ∧
      ¬ EmbedsIn (opening ++ ("f(a<b)".toList ++ closing)) span := by
  intro opening closing span
  have hPre : '<' ∉ "a".toList := by decide
  have hSource : ∀ x y, " id".toList = x ++ y → ¬ Tag.script.form.Begins y := by
    rintro x y hSplit ⟨blank, written, value, -, hWritten, rfl⟩
    have hLength := congrArg List.length hSplit
    have hName : 3 = written.length := hWritten.length_eq
    simp at hLength
    omega
  have hNone : scanEmbeds ("f(a<b)".toList ++ closing) = [] := by decide +kernel
  refine ⟨hPre, hSource, fun hEmbeds => ?_⟩
  obtain ⟨found, hFound, -⟩ := (embedsIn_inlineBody hPre hSource).1 hEmbeds
  rw [hNone] at hFound
  cases hFound

/-- An image in the text that a script writes is a directive, since the script itself has no
source. -/
theorem image_in_inlineBody :
    let t : Text := "<script>document.write('<img src=\"b.png\" />')</script>".toList
    let body : Span := ⟨8, 45⟩
    let found : Directive :=
      { kind := .image, address := "b.png".toList, addressSpan := ⟨34, 39⟩, span := ⟨24, 43⟩
        quote := '"' }
    t.slice? 0 8 = some "<script>".toList ∧ t.slice? 45 54 = some "</script>".toList ∧
      scanEmbeds t = [found] ∧ EmbedsIn t body := by
  intro t body found
  have hScan : scanEmbeds t = [found] := by decide +kernel
  refine ⟨by decide +kernel, by decide +kernel, hScan, found, ?_, by decide⟩
  rw [hScan]
  exact List.mem_singleton.mpr rfl

end AssetLoom.Directive
