import AssetLoom.Proofs.Links
import AssetLoom.Proofs.Planning
import AssetLoom.Proofs.Resolution

/-!
# Quotes around what is written

The address of a directive stands between quotes, and what a pass writes in its place is put
between the same quotes as it is: nothing is escaped. So the quotes go wrong if a name or a URI
holds the quote (`compileRoot_breaks_quotes`), and this is the only way for them to go wrong while
they are not replaced themselves (`compile_quotes`). A path that is made of others holds no quote
that those do not hold, and neither does a data URI.

* `Text.Quoted`: a value between quotes that end where it ends.
* `Planned.InPlace`: an address that is replaced while its quotes are kept.
* `Planned.sources`: where the value for a directive comes from.
-/

namespace AssetLoom

open Text (byteLength)

/-- Behind a front the text goes on with a value between quotes, which end where the value ends. -/
def Text.Quoted (t front : Text) (quote : Char) (value : Text) : Prop :=
  quote ∉ value ∧ ∃ back, t = front ++ quote :: value ++ quote :: back

/-- The front is what some edits make of a text up to a byte offset. -/
def FrontMade (edits : List Edit) (t : Text) (offset : Nat) (front : Text) : Prop :=
  ∃ x behind earlier, t = x ++ behind ∧ byteLength x = offset ∧ earlier <+: edits ∧
    Spliced 0 x earlier front

/-! ## Replaced addresses -/

theorem Directive.quote_ne {kind : DirectiveKind} {quote : Char}
    (h : quote = '"' ∨ quote = '\'' ∧ kind.isEmbed = false) : quote ≠ '.' ∧ quote ≠ '/' := by
  rcases h with rfl | ⟨rfl, -⟩ <;> decide

/-- The address is replaced, and no other region reaches up to the quotes around it. -/
structure Planned.InPlace (planned : Planned) (all : List Planned) : Prop where
  region_eq : planned.region = planned.directive.addressSpan
  apart : ∀ other ∈ all, other ≠ planned →
    other.region.stop ≠ planned.region.start ∧ other.region.start ≠ planned.region.stop

/-- The first bytes of a text are replaced. -/
theorem Spliced.replace_front {offset : Nat} {old rest new output : Text} {edits : List Edit}
    (h : Spliced offset (old ++ rest) (⟨⟨offset, offset + byteLength old⟩, new⟩ :: edits) output) :
    ∃ tail, output = new ++ tail ∧ Spliced (offset + byteLength old) rest edits tail := by
  generalize hText : old ++ rest = t at h
  generalize hSpan : (⟨offset, offset + byteLength old⟩ : Span) = span at h
  cases h with
  | @edit _ kept old' rest' _ tail _ h =>
    obtain ⟨hStart, hStop⟩ := Span.mk.inj hSpan
    obtain rfl : kept = [] := Text.byteLength_eq_zero.mp (by omega)
    rw [Text.byteLength_nil, Nat.add_zero] at hStop h
    rw [List.nil_append] at hText
    obtain ⟨rfl, rfl⟩ := Text.append_inj_of_byteLength hText (by omega)
    exact ⟨tail, by simp, h⟩

/-- What is written for an address that is replaced in place stands between its quotes. -/
theorem exists_quoted {t output : Text} {pass : Pass} {referrer : String}
    {replacement : Planned → Resource → Text} {dependency : String → Resource} {planned : Planned}
    (hMem : planned ∈ plan t pass referrer) (hInPlace : planned.InPlace (plan t pass referrer))
    (h : Spliced 0 t (passEdits replacement dependency (plan t pass referrer)) output) :
    ∃ front back, FrontMade (passEdits replacement dependency (plan t pass referrer)) t
        (planned.region.start - 1) front ∧
      output = front ++ planned.directive.quote ::
        (replacement planned (dependency planned.key) ++ planned.directive.quote :: back) := by
  obtain ⟨-, hStands, -⟩ := Planned.region_cases (mem_of_mem_disjoint hMem)
  obtain ⟨hQuote, -, x, y, hText, hSpan⟩ := hStands.quoted
  have hSize : planned.directive.quote.utf8Size = 1 := by
    rcases hQuote with h | ⟨h, -⟩ <;> rw [h] <;> rfl
  have hRegion := hInPlace.region_eq.trans hSpan
  obtain ⟨earlier, later, hPlan⟩ := List.append_of_mem hMem
  have hOrder := pairwise_plan_start t pass referrer
  have hApart := hInPlace.apart
  rw [hPlan] at h hOrder hApart ⊢
  obtain ⟨-, hNext, hBefore⟩ := List.pairwise_append.mp hOrder
  -- No other edit reaches up to the quotes.
  have hEarlier : ∀ edit ∈ passEdits replacement dependency earlier,
      edit.span.stop ≤ 0 + byteLength x := by
    intro edit hEdit
    obtain ⟨other, hOther, rfl⟩ := List.mem_map.mp hEdit
    obtain ⟨hStart, hStop⟩ := hBefore other hOther planned List.mem_cons_self
    have hTouch := (hApart other (by simp [hOther]) (by rintro rfl; omega)).1
    rw [hRegion] at hStop hTouch
    dsimp only at hStop hTouch ⊢
    omega
  have hLater : ∀ edit ∈ passEdits replacement dependency later,
      byteLength x + 1 + byteLength planned.directive.address + 1 ≤ edit.span.start := by
    intro edit hEdit
    obtain ⟨other, hOther, rfl⟩ := List.mem_map.mp hEdit
    obtain ⟨hStart, hStop⟩ := (List.pairwise_cons.mp hNext).1 other hOther
    have hTouch := (hApart other (by simp [hOther]) (by rintro rfl; omega)).2
    rw [hRegion] at hStop hTouch
    dsimp only at hStop hTouch ⊢
    omega
  have hEdits : passEdits replacement dependency (earlier ++ planned :: later) =
      passEdits replacement dependency earlier ++
        ⟨planned.region, replacement planned (dependency planned.key)⟩ ::
          passEdits replacement dependency later := by
    simp [passEdits]
  rw [hEdits, hText] at h
  obtain ⟨front, middle, rfl, hFront, hMiddle⟩ := h.cut hEarlier <| by
    refine List.forall_mem_cons.mpr ⟨?_, fun edit hEdit => ?_⟩
    · rw [hRegion]
      dsimp only
      omega
    · have := hLater edit hEdit
      omega
  -- The opening quote is kept, the address is replaced, the closing quote is kept.
  rw [Nat.zero_add, hRegion] at hMiddle
  have hQuoteLength : byteLength [planned.directive.quote] = 1 := by simp [hSize]
  obtain ⟨tail, rfl, hTail⟩ := Spliced.keep_front (a := [planned.directive.quote]) hMiddle <| by
    rw [hQuoteLength]
    refine List.forall_mem_cons.mpr ⟨Nat.le_refl _, fun edit hEdit => ?_⟩
    have := hLater edit hEdit
    omega
  rw [hQuoteLength] at hTail
  obtain ⟨closing, rfl, hClosing⟩ := hTail.replace_front
  obtain ⟨back, rfl, -⟩ := Spliced.keep_front (a := [planned.directive.quote]) hClosing <| by
    rw [hQuoteLength]
    exact hLater
  refine ⟨front, back, ⟨x, _, _, hText, ?_, hEdits ▸ List.prefix_append .., hFront⟩, rfl⟩
  rw [hRegion]
  exact (Nat.add_sub_cancel ..).symm

/-- What stands between quotes still does after edits that do not reach into it. -/
theorem Text.Quoted.spliced {t front value output : Text} {quote : Char} {edits : List Edit}
    (h : Text.Quoted t front quote value) (hFits : Fits t edits)
    (hSpliced : Spliced 0 t edits output)
    (hApart : ∀ edit ∈ edits, edit.span.stop ≤ byteLength front ∨
      byteLength (front ++ quote :: value ++ [quote]) ≤ edit.span.start) :
    ∃ front', FrontMade edits t (byteLength front) front' ∧
      Text.Quoted output front' quote value := by
  obtain ⟨hNotMem, back, hText⟩ := h
  obtain ⟨before, after, rfl, hBefore, hAfter⟩ := hFits.split hApart
  have hCut : t = front ++ ((quote :: value ++ [quote]) ++ back) := by simp [hText]
  have hLength : byteLength (front ++ quote :: value ++ [quote]) =
      byteLength front + byteLength (quote :: value ++ [quote]) := by
    rw [List.append_assoc, Text.byteLength_append]
  rw [hLength] at hAfter
  rw [hCut] at hSpliced
  obtain ⟨front', middle, rfl, hFront, hMiddle⟩ := hSpliced.cut
    (fun edit hEdit => by have := hBefore edit hEdit; omega)
    (fun edit hEdit => by have := hAfter edit hEdit; omega)
  rw [Nat.zero_add] at hMiddle
  obtain ⟨back', rfl, -⟩ := hMiddle.keep_front hAfter
  exact ⟨front', ⟨front, _, before, hCut, rfl, List.prefix_append .., hFront⟩, hNotMem, back',
    by simp⟩

/-! ## Where values come from -/

/-- The texts that the value for a directive whose address is replaced in place comes from: names
and URIs are written as they are, and paths are made of URIs. -/
def Planned.sources (planned : Planned) (dependency : Resource) : List String :=
  match planned.directive.kind with
  | .script | .link => [dependency.output]
  | .image => if planned.inline then [] else [dependency.output]
  | .requireScript | .requireStyle => [dependency.id]
  | .includeFile | .extendFile => [dependency.output]
  | .widget => [dependency.id, dependency.output]

/-- Base64 is written without quotes. -/
theorem Text.Base64.quote_notMem_encode (bytes : List UInt8) : '"' ∉ encode bytes := by
  have hDigit : ∀ n, '"' ≠ digit n := by
    intro n
    have hAll : ∀ m < 64, '"' ≠ digit m := by decide
    have hMod : digit n = digit (n % 64) := by rw [digit, digit, Nat.mod_mod]
    exact hMod ▸ hAll (n % 64) (Nat.mod_lt _ (by decide))
  fun_induction encode bytes with
  | case1 => simp
  | case2 a n => simp [hDigit]
  | case3 a b n => simp [hDigit]
  | case4 a b c rest n ih => simp [hDigit, ih]

theorem MediaType.quote_notMem_ofExtension (extension : Option String) :
    '"' ∉ (ofExtension extension).toList := by
  unfold ofExtension
  split <;> decide

theorem Resource.quote_notMem_dataUri (r : Resource) : '"' ∉ r.dataUri.toList := by
  have hType := MediaType.quote_notMem_ofExtension (Path.extension? r.path)
  have hBytes := Text.Base64.quote_notMem_encode r.content.toList
  have hUri : r.dataUri = "data:" ++ MediaType.ofPath r.path ++ ";base64," ++
      .ofList (Text.Base64.encode r.content.toList) := rfl
  simp [hUri, MediaType.ofPath, hType, hBytes]

theorem Planned.key_eq {referrer : String} {directive : Directive} {planned : Planned}
    (h : Planned.ofDirective? referrer directive = some planned) :
    planned.key = Path.join (Path.dirname referrer)
      (.ofList (Address.file planned.directive.address)) := by
  unfold ofDirective? at h
  split at h
  · next key inline hResolve =>
    obtain rfl := Option.some.inj h
    exact (Address.resolve_eq_resource_iff.mp hResolve).2.1
  · cases h

section

variable {t : Text} {referrer : String} {planned : Planned} {dependency : Resource}

/-- What the first pass writes between quotes holds them only if its source does. -/
theorem quote_notMem_identityReplacement (hMem : planned ∈ plan t .identity referrer)
    (hRegion : planned.region = planned.directive.addressSpan)
    (hSources : ∀ source ∈ planned.sources dependency,
      planned.directive.quote ∉ source.toList) :
    planned.directive.quote ∉ identityReplacement planned dependency := by
  obtain ⟨-, hStands, -⟩ := Planned.region_cases (mem_of_mem_disjoint hMem)
  have hQuote := hStands.quoted.1
  have hInside := hStands.addressSpan_inside.2
  -- A script or a link whose content is wanted in place is replaced as a whole.
  have hPlain : planned.directive.kind = .script ∨ planned.directive.kind = .link →
      planned.inline = false := by
    intro hKind
    cases hInline : planned.inline with
    | false => rfl
    | true =>
      have hSpan := Planned.region_of_inline (directive_of_mem_plan hMem).2 hInline hKind
      rw [← hRegion, hSpan] at hInside
      exact absurd hInside (Nat.lt_irrefl _)
  unfold Planned.sources at hSources
  unfold identityReplacement
  cases hKind : planned.directive.kind with
  | image =>
    rw [hKind] at hQuote hSources
    cases hInline : planned.inline with
    | true =>
      rw [hQuote.resolve_right (by simp [DirectiveKind.isEmbed])]
      exact dependency.quote_notMem_dataUri
    | false => simpa [hInline] using hSources
  | script => simpa [hKind, hPlain (.inl hKind)] using hSources
  | link => simpa [hKind, hPlain (.inr hKind)] using hSources
  | requireScript | requireStyle => simpa [hKind] using hSources
  | includeFile | extendFile => simpa [hKind] using hSources
  | widget => exact (by simpa [hKind] using hSources : _ ∧ _).2

/-- The path of a resource that an address names is made of the address, in which there is no
quote, and the directory of the template. -/
theorem quote_notMem_key {pass : Pass} (hMem : planned ∈ plan t pass referrer)
    (hDirectory : planned.directive.quote ∉ (Path.dirname referrer).toList) :
    planned.directive.quote ∉ planned.key.toList := by
  obtain ⟨-, hStands, -⟩ := Planned.region_cases (mem_of_mem_disjoint hMem)
  obtain ⟨hQuote, hAddress, -⟩ := hStands.quoted
  obtain ⟨hDot, hSlash⟩ := Directive.quote_ne hQuote
  rw [Planned.key_eq (directive_of_mem_plan hMem).2, Path.join, String.toList_ofList,
    String.toList_ofList]
  exact Path.Segments.notMem_join hDot hSlash hDirectory fun h =>
    hAddress ((List.takeWhile_prefix _).subset h)

theorem quote_notMem_relativeAddress (own : String) {quote : Char} (hDot : quote ≠ '.')
    (hSlash : quote ≠ '/') (hOutput : quote ∉ dependency.output.toList) :
    quote ∉ (relativeAddress own dependency).toList := by
  have hPath : quote ∉ (Path.relative (Path.dirname own) dependency.output).toList := by
    rw [Path.relative, String.toList_ofList]
    exact Path.Segments.notMem_relative hDot hSlash hOutput
  rcases toList_dotted (Path.relative (Path.dirname own) dependency.output) with h | h
  · rw [relativeAddress, h]
    exact hPath
  · rw [relativeAddress, h]
    simp [hDot, hSlash, hPath]

end

/-- What the second pass writes between quotes. -/
theorem quoted_relativeReplacement {own : String} {planned : Planned} {dependency : Resource}
    {t front back : Text} {referrer : String} (hMem : planned ∈ plan t .relative referrer)
    (hSources : ∀ source ∈ planned.sources dependency, planned.directive.quote ∉ source.toList)
    {output : Text} (hOutput : output = front ++ planned.directive.quote ::
      (relativeReplacement own planned dependency ++ planned.directive.quote :: back)) :
    ((planned.directive.kind = .includeFile ∨ planned.directive.kind = .extendFile) ∧
        Text.Quoted output front planned.directive.quote
          (relativeAddress own dependency).toList) ∨
      planned.directive.kind = .widget ∧
        Text.Quoted output front planned.directive.quote dependency.id.toList ∧
        Text.Quoted output (front ++ planned.directive.quote :: dependency.id.toList ++
          planned.directive.quote :: " path=".toList) planned.directive.quote
            (relativeAddress own dependency).toList := by
  obtain ⟨-, hStands, -⟩ := Planned.region_cases (mem_of_mem_disjoint hMem)
  obtain ⟨hDot, hSlash⟩ := Directive.quote_ne hStands.quoted.1
  have hKind := (Planned.region_of_relative hMem).2
  have hAddress : planned.directive.quote ∉ (relativeAddress own dependency).toList := by
    refine quote_notMem_relativeAddress own hDot hSlash (hSources dependency.output ?_)
    rcases hKind with hKind | hKind | hKind <;> simp [Planned.sources, hKind]
  unfold relativeReplacement at hOutput
  rcases hKind with hKind | hKind | hKind <;> rw [hKind] at hOutput
  · exact .inl ⟨.inl hKind, hAddress, back, by simpa using hOutput⟩
  · exact .inl ⟨.inr hKind, hAddress, back, by simpa using hOutput⟩
  · have hId := hSources dependency.id (by simp [Planned.sources, hKind])
    refine .inr ⟨hKind, ⟨hId, " path=".toList ++ planned.directive.quote ::
      (relativeAddress own dependency).toList ++ planned.directive.quote :: back, ?_⟩,
      hAddress, back, ?_⟩
    · simpa using hOutput
    · simpa using hOutput

/-! ## Compiled templates -/

namespace Session

open Build (Keeps)

/-- Whenever a template is compiled, and from then on: what has been written for an address that is
replaced in place stands between the quotes of the address and does not hold them, if the names and
URIs that it comes from do not; for an image whose content is wanted in place, in any case. What the
first pass has written still stands there in the end if the second pass does not reach into it.
The path of a resource that is named holds the quote only if the directory of the template does. -/
theorem compile_quotes {session : Session} (attempt : session.Attempt)
    (hOwn : ∀ kind, (session.compilers.forKind kind).TendsOwn) {depth : Nat} {last later : Build}
    (hOk : session.compileWithin depth attempt.path attempt.rule attempt.start = (.ok (), last))
    (hLater : Keeps last later) :
    let view : View := later.resources.get?
    let dependency := View.resource view
    let before := searchedText session.options attempt.template.text
    let middle := Text.decode (attempt.rewritten view)
    let firstPlan := identityPlan session.options attempt.path attempt.template.text
    let secondPlan := relativePlan attempt.path middle
    ∃ own made, uriBy attempt.rule attempt.path = .ok own ∧ view attempt.path = some made ∧
      made.state = .compiled ∧
      (∀ planned ∈ firstPlan ++ secondPlan, View.Compiled view planned.key ∧
        (planned.directive.quote ∈ planned.key.toList →
          planned.directive.quote ∈ (Path.dirname attempt.path).toList)) ∧
      (∀ planned ∈ firstPlan, planned.InPlace firstPlan →
        let quote := planned.directive.quote
        let value := identityReplacement planned (dependency planned.key)
        (∀ source ∈ planned.sources (dependency planned.key), quote ∉ source.toList) →
        ∃ front, FrontMade (passEdits identityReplacement dependency firstPlan) before
            (planned.region.start - 1) front ∧ Text.Quoted middle front quote value ∧
          ((∀ other ∈ secondPlan, other.region.stop ≤ byteLength front ∨
              byteLength (front ++ quote :: value ++ [quote]) ≤ other.region.start) →
            ∃ front', FrontMade (passEdits (relativeReplacement own) dependency secondPlan) middle
                (byteLength front) front' ∧ Text.Quoted made.text front' quote value)) ∧
      ∀ planned ∈ secondPlan, planned.InPlace secondPlan →
        let quote := planned.directive.quote
        let address := (relativeAddress own (dependency planned.key)).toList
        let id := (dependency planned.key).id.toList
        (∀ source ∈ planned.sources (dependency planned.key), quote ∉ source.toList) →
        ∃ front, FrontMade (passEdits (relativeReplacement own) dependency secondPlan) middle
            (planned.region.start - 1) front ∧
          ((planned.directive.kind = .includeFile ∨ planned.directive.kind = .extendFile) ∧
              Text.Quoted made.text front quote address ∨
            planned.directive.kind = .widget ∧ Text.Quoted made.text front quote id ∧
              Text.Quoted made.text (front ++ quote :: id ++ quote :: " path=".toList) quote
                address) := by
  obtain ⟨v, hVersion, hMade⟩ := Attempt.version_of_ok hOwn hOk hLater
  intro view dependency before middle firstPlan secondPlan
  cases hVersion with
  | @finished own hFirst hUri hSecond =>
    have hMiddle :
        Spliced 0 before (passEdits identityReplacement dependency firstPlan) middle := by
      rw [show middle = _ from decode_identityContent ..]
      exact spliced_identityText ..
    have hText : Spliced 0 middle (passEdits (relativeReplacement own) dependency secondPlan)
        (Text.decode (relativeContent attempt.path own dependency (attempt.rewritten view))) := by
      rw [decode_relativeContent]
      exact spliced_relativeText ..
    refine ⟨own, _, hUri, hMade, rfl, ?_, ?_, ?_⟩
    · intro planned hPlanned
      rcases List.mem_append.mp hPlanned with hPlanned | hPlanned
      · exact ⟨hFirst _ (List.mem_map_of_mem hPlanned),
          not_imp_not.mp (quote_notMem_key hPlanned)⟩
      · exact ⟨hSecond _ (List.mem_map_of_mem hPlanned),
          not_imp_not.mp (quote_notMem_key hPlanned)⟩
    · intro planned hPlanned hInPlace quote value hSources
      obtain ⟨front, back, hFront, hOutput⟩ := exists_quoted hPlanned hInPlace hMiddle
      have hQuoted : Text.Quoted middle front quote value :=
        ⟨quote_notMem_identityReplacement hPlanned hInPlace.region_eq hSources, back,
          by simpa using hOutput⟩
      refine ⟨front, hFront, hQuoted, fun hApart => ?_⟩
      refine hQuoted.spliced (fits_passEdits ..) hText fun edit hEdit => ?_
      obtain ⟨other, hOther, rfl⟩ := List.mem_map.mp hEdit
      exact hApart other hOther
    · intro planned hPlanned hInPlace quote address id hSources
      obtain ⟨front, back, hFront, hOutput⟩ := exists_quoted hPlanned hInPlace hText
      exact ⟨front, hFront, quoted_relativeReplacement hPlanned hSources hOutput⟩

/-- A page that shows a widget whose name holds quotes of the other kind. -/
theorem compile_quotes_widget :
    let page : Resource :=
      { path := "page/index.tpl"
        kind := .template
        content := "\x7b\x7bbrisk_widget name='nav.tpl'\x7d\x7d".toUTF8 }
    let start : Build := { resources :=
      { entries := [page, { path := "page/nav.tpl", label := some "the \"nav\"",
                            kind := .template, content := .empty }]
        paths_nodup := by decide } }
    let result := Session.compile {} page.path none start
    result.1 = .ok () ∧ (relativePlan page.path page.text).length = 1 ∧
      ∃ made, result.2.resources.get? page.path = some made ∧
        ∀ planned ∈ relativePlan page.path page.text, ∃ front,
          Text.Quoted made.text front '\'' "the \"nav\"".toList ∧
          Text.Quoted made.text (front ++ '\'' :: "the \"nav\"".toList ++ '\'' ::
            " path=".toList) '\'' "./nav.tpl".toList := by
  intro page start result
  let attempt : Attempt {} :=
    { path := page.path, rule := none, start, template := page
      get := Registry.get?_eq_some_iff.mpr ⟨List.mem_cons_self, rfl⟩
      pending := rfl, permanent := rfl, compiler := rfl }
  have hOutcome : result.1 = .ok () := by decide +kernel
  have hOk : Session.compileWithin {} 2 attempt.path attempt.rule attempt.start =
      (.ok (), result.2) := Prod.ext hOutcome rfl
  obtain ⟨own, made, hUri, hMade, -, -, -, hPlanned⟩ := compile_quotes attempt
    (fun kind => Compilers.builtIn_default.tendsOwn kind) hOk (.refl _)
  cases hUri
  have hText : Text.decode (attempt.rewritten result.2.resources.get?) = page.text := by
    decide +kernel
  rw [hText] at hPlanned
  have hRegion : ∀ planned ∈ relativePlan page.path page.text,
      planned.region = planned.directive.addressSpan ∧
      (∀ other ∈ relativePlan page.path page.text, other ≠ planned →
        other.region.stop ≠ planned.region.start ∧
          other.region.start ≠ planned.region.stop) ∧
      planned.directive.quote = '\'' ∧ planned.directive.kind = .widget ∧
      planned.key = "page/nav.tpl" := by
    decide +kernel
  have hDependency : (View.resource result.2.resources.get? "page/nav.tpl").id =
        "the \"nav\"" ∧
      (View.resource result.2.resources.get? "page/nav.tpl").output = "page/nav.tpl" := by
    decide +kernel
  obtain ⟨hId, hOutput⟩ := hDependency
  refine ⟨hOutcome, by decide +kernel, made, hMade, fun planned hMem => ?_⟩
  obtain ⟨hSpan, hApart, hQuote, hKind, hKey⟩ := hRegion planned hMem
  have hSources : ∀ source ∈ planned.sources (View.resource result.2.resources.get? planned.key),
      planned.directive.quote ∉ source.toList := by
    rw [Planned.sources, hKind, hKey, hId, hOutput, hQuote]
    show ∀ source ∈ ["the \"nav\"", "page/nav.tpl"], '\'' ∉ source.toList
    decide +kernel
  obtain ⟨front, -, hQuoted⟩ := hPlanned planned hMem ⟨hSpan, hApart⟩ hSources
  have hAddress : relativeAddress page.path
      (View.resource result.2.resources.get? "page/nav.tpl") = "./nav.tpl" := by
    decide +kernel
  rw [hQuote, hKey, hId, hAddress] at hQuoted
  exact ⟨front, (hQuoted.resolve_left (by simp [hKind])).2⟩

/-- Quotes that go wrong. First the name of a script holds the quote; then it holds none, but an
include, which the second pass rewrites; and last the closing quote of an image is part of the
address that a script is required by, and is replaced with it. -/
theorem compileRoot_breaks_quotes :
    let compile := fun content name : String =>
      let result := Session.compileRoot {} "a.tpl" { resources :=
        { entries := [{ path := "a.tpl", kind := .template, content := content.toUTF8 },
            { path := "b.js", label := some name, kind := .script, content := .empty }]
          paths_nodup := by simp } }
      (result.1.isOk, (result.2.resources.get? "a.tpl").map Resource.text)
    let page := "\x7b\x7bbrisk_require_js name='b.js'\x7d\x7d"
    let image := "<img src=\"\x7b\x7bbrisk_require_js name='\" />'\x7d\x7d".toList
    (∃ planned ∈ identityPlan {} "a.tpl" page.toList,
        planned.region = planned.directive.addressSpan ∧ planned.directive.quote = '\'' ∧
        planned.directive.kind = .requireScript ∧ planned.key = "b.js") ∧
      compile page "it's" = (true, some "\x7b\x7bbrisk_require_js name='it's'\x7d\x7d".toList) ∧
      compile page "\x7b\x7binclude file=\"b.js\"\x7d\x7d" =
        (true, some ("\x7b\x7bbrisk_require_js name='" ++
          "\x7b\x7binclude file=\"./b.js\"\x7d\x7d'\x7d\x7d").toList) ∧
      identityText {} "p/a.tpl"
          (fun path => { path, label := some "n", kind := .other, content := .empty }) image =
        "<img src=\"p/\x7b\x7bbrisk_require_js name='n'\x7d\x7d".toList := by
  intro compile page image
  have hScan : Directive.scan .identity image =
      Directive.scanEmbeds image ++ Directive.scanRequires image :=
    List.mergeSort_of_pairwise (by decide +kernel)
  have hPlan : identityPlan {} "p/a.tpl" image = keepDisjoint Planned.region none
      ((Directive.scanEmbeds image ++ Directive.scanRequires image).filterMap
        (Planned.ofDirective? "p/a.tpl")) := by
    rw [identityPlan, show searchedText {} image = image from rfl, plan, hScan, disjoint,
      List.mergeSort_of_pairwise (by decide +kernel)]
  have hFits (dependency : String → Resource) : Fits (searchedText {} image)
      (passEdits identityReplacement dependency (identityPlan {} "p/a.tpl" image)) :=
    fits_passEdits ..
  refine ⟨by decide +kernel, by decide +kernel, by decide +kernel, ?_⟩
  rw [identityText, applyEdits, applyEdits?, (hFits _).applyEdits?_eq_some.1, hPlan]
  decide +kernel

end Session

end AssetLoom
