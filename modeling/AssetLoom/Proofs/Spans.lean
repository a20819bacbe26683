import AssetLoom.Proofs.Position

/-!
# Spans are exact

What is found in a text can be replaced without a second look at it: the spans of a directive are
parts of the text, and at the span of the address stands the address, with a quote on either side
that it does not hold (`Exact`). The directives of a pass are those of its two scanners, merged in
order of start, and those of one scanner lie apart (`scan_exact`).

The spans of directives from different scanners may overlap in any way. Yet no two directives of a
pass have addresses that start at the same byte (`pairwise_scan`), since the names of their
attributes end differently.
-/

namespace AssetLoom

open Text (byteLength)

/-- The scanners that find the directives of a pass. -/
def Pass.scanners : Pass → List (Text → List Directive)
  | .identity => [Directive.scanEmbeds, Directive.scanRequires]
  | .relative => [Directive.scanIncludes, Directive.scanWidgets]

namespace Directive

/-! ## Quotes -/

theorem quote_cases {kind : DirectiveKind} {quote : Char}
    (h : quote ∈ (attributeForm kind).quotes) :
    quote = '"' ∨ quote = '\'' ∧ kind.isEmbed = false := by
  cases kind <;>
    simp only [attributeForm, Tag.form, expressionAttribute, List.mem_cons, List.not_mem_nil,
      or_false] at h <;> simp [h, DirectiveKind.isEmbed]

/-- The address stands between quotes, and does not hold them. -/
theorem Stands.quoted {t : Text} {a : Directive} (h : Stands t a) :
    (a.quote = '"' ∨ a.quote = '\'' ∧ a.kind.isEmbed = false) ∧ a.quote ∉ a.address ∧
      ∃ x y, t = x ++ a.quote :: (a.address ++ a.quote :: y) ∧
        a.addressSpan = ⟨byteLength x + 1, byteLength x + 1 + byteLength a.address⟩ := by
  obtain ⟨front, cut, behind, hText, hEq, hAttributed, -⟩ := h
  obtain ⟨before, written, hLead, -⟩ := hAttributed.lead
  obtain ⟨after, hTail⟩ := hAttributed.tail
  have hQuote : a.quote = cut.quote := by rw [hEq]; rfl
  have hAddress : a.address = cut.address := by rw [hEq]; rfl
  have hCases := quote_cases hAttributed.quote_mem
  have hSize : cut.quote.utf8Size = 1 := by
    rcases hCases with h | ⟨h, -⟩ <;> rw [h] <;> rfl
  rw [hQuote, hAddress]
  refine ⟨hCases, hAttributed.quote_notMem, front ++ before ++ written ++ ['='], after ++ behind,
    ?_, ?_⟩
  · simp [hText, Cut.text, hLead, hTail]
  · rw [hEq]
    simp [ofCut, hLead, hSize, Nat.add_assoc]

/-! ## Single directives -/

/-- The spans of a directive tell where it and its address stand in a text. -/
structure Exact (t : Text) (directive : Directive) : Prop where
  span_within : directive.span.Within t
  addressSpan_within : directive.addressSpan.Within t
  start_lt : directive.span.start < directive.addressSpan.start
  lt_stop : directive.addressSpan.stop < directive.span.stop
  slice?_eq : t.slice? directive.addressSpan.start directive.addressSpan.stop =
    some directive.address
  /-- The characters in front of the address and behind it are the quote. -/
  between_quotes : ∃ before after,
    t = before ++ directive.quote :: (directive.address ++ directive.quote :: after) ∧
      directive.addressSpan.start = byteLength (before ++ [directive.quote]) ∧
      directive.addressSpan.stop = byteLength (before ++ directive.quote :: directive.address)
  quote_notMem : directive.quote ∉ directive.address

theorem Stands.exact {t : Text} {a : Directive} (h : Stands t a) : Exact t a := by
  obtain ⟨hQuote, hAddress, before, after, hText, hSpan⟩ := h.quoted
  have hSize : a.quote.utf8Size = 1 := by
    rcases hQuote with h | ⟨h, -⟩ <;> rw [h] <;> rfl
  refine ⟨h.span_within, h.addressSpan_within, h.addressSpan_inside.1, h.addressSpan_inside.2, ?_,
    ⟨before, after, hText, ?_, ?_⟩, hAddress⟩
  · rw [hSpan]
    exact Text.slice?_of_eq (before ++ [a.quote]) a.address (a.quote :: after) (by simp [hText])
      (by simp [hSize]) (by simp [hSize])
  · rw [hSpan]
    simp [hSize]
  · rw [hSpan]
    simp [hSize, Nat.add_assoc]

/-! ## Scanners -/

/-- Each scanner of a pass finds what its reader reads, and that belongs to the pass. -/
theorem exists_reader {pass : Pass} {scanner : Text → List Directive}
    (h : scanner ∈ pass.scanners) : ∃ read, Sound read ∧ scanner = scanFrom read 0 0 ∧
      ∀ t kind cut, read t = some (kind, cut) → kind.pass = pass := by
  have hExpression : ∀ {keywords : List (String × DirectiveKind)} {form : AttributeForm},
      (∀ kind ∈ keywords.map Prod.snd, kind.pass = pass) → ∀ t kind cut,
        readExpression keywords form t = some (kind, cut) → kind.pass = pass :=
    fun hPass t kind cut hRead => hPass kind (kind_of_readExpression hRead)
  cases pass with
  | identity =>
    rcases List.mem_cons.mp h with rfl | h
    · refine ⟨readEmbed, sound_readEmbed, rfl, fun t kind cut hRead => ?_⟩
      have hEmbed := kind_of_readEmbed hRead
      cases kind with
      | script | link | image => rfl
      | _ => cases hEmbed
    · obtain rfl := List.mem_singleton.mp h
      exact ⟨readRequire, sound_readRequire, rfl, hExpression (by decide)⟩
  | relative =>
    rcases List.mem_cons.mp h with rfl | h
    · exact ⟨readInclude, sound_readInclude, rfl, hExpression (by decide)⟩
    · obtain rfl := List.mem_singleton.mp h
      exact ⟨readWidget, sound_readWidget, rfl, hExpression (by decide)⟩

section

variable {pass : Pass} {scanner : Text → List Directive}

/-- The directives of one scanner follow one another, and none of them is empty. -/
theorem pairwise_scanner (h : scanner ∈ pass.scanners) (t : Text) :
    (scanner t).Pairwise (fun a b => a.span.Precedes b.span) ∧
      ∀ a ∈ scanner t, a.span.start < a.span.stop := by
  obtain ⟨read, hRead, rfl, -⟩ := exists_reader h
  refine ⟨pairwise_scanFrom hRead [] t 0, fun a ha => ?_⟩
  have hStands := (stands_of_mem_scanFrom hRead [] ha).1
  have hLe := hStands.addressSpan_within.start_le_stop
  have hInside := hStands.addressSpan_inside
  omega

/-- A pass merges what its scanners find. -/
theorem scan_eq (pass : Pass) (t : Text) :
    scan pass t = (pass.scanners.flatMap fun scanner => scanner t).mergeSort
      fun a b => a.span.startsBefore b.span := by
  cases pass <;> simp [scan, Pass.scanners]

theorem mem_scan_iff {t : Text} {a : Directive} :
    a ∈ scan pass t ↔ ∃ scanner ∈ pass.scanners, a ∈ scanner t := by
  rw [scan_eq, List.mem_mergeSort, List.mem_flatMap]

/-- Every directive of a pass stands in the text. -/
theorem stands_of_mem_scan {t : Text} {a : Directive} (h : a ∈ scan pass t) : Stands t a := by
  obtain ⟨scanner, hScanner, hMem⟩ := mem_scan_iff.mp h
  obtain ⟨read, hRead, rfl, -⟩ := exists_reader hScanner
  exact (stands_of_mem_scanFrom hRead [] hMem).1

theorem pass_of_mem_scan {t : Text} {a : Directive} (h : a ∈ scan pass t) :
    a.kind.pass = pass := by
  obtain ⟨scanner, hScanner, hMem⟩ := mem_scan_iff.mp h
  obtain ⟨read, -, rfl, hPass⟩ := exists_reader hScanner
  exact kind_of_mem_scanFrom hPass hMem

/-- What one scanner finds keeps its order. -/
theorem scanner_sublist_scan (h : scanner ∈ pass.scanners) (t : Text) :
    (scanner t).Sublist (scan pass t) := by
  obtain ⟨hOrder, hNonempty⟩ := pairwise_scanner h t
  rw [scan_eq]
  refine sublist_mergeSort_start ?_ (hOrder.imp_of_mem fun {a b} ha _ hab => ?_)
  · rw [List.flatMap_def]
    exact List.sublist_flatten_of_mem (List.mem_map_of_mem h)
  · exact Nat.le_trans (Nat.le_of_lt (hNonempty a ha)) hab

end

/-! ## Where addresses start -/

/-- The addresses of a tag and of an expression start at different bytes: the name of the
attribute ends with another letter. -/
theorem Stands.start_ne_of_embed {t : Text} {a b : Directive} (ha : Stands t a) (hb : Stands t b)
    (hEmbed : a.kind.isEmbed = true)
    (hRequire : b.kind = .requireScript ∨ b.kind = .requireStyle) :
    a.addressSpan.start ≠ b.addressSpan.start := by
  intro hStart
  obtain ⟨x, written, x', written', hText, hA, hB⟩ := ha.names_meet hb hStart
  obtain ⟨c, hLast, hFold⟩ := getLast?_of_embed hEmbed hA
  have hName : written' = "name".toList := by
    rcases hRequire with h | h <;>
    · rw [h] at hB
      exact eq_of_forall₂_exactly hB
  have hEnds := congrArg List.getLast? hText
  rw [List.getLast?_append, List.getLast?_append, hLast, hName] at hEnds
  have hLetter : c = 'e' := Option.some.inj hEnds
  have hLower : Text.fold 'e' = 'e' := by decide
  rw [hLetter, hLower] at hFold
  revert hFold
  decide

/-- The addresses of a widget and of an include or an extends start at different bytes. -/
theorem Stands.start_ne_of_widget {t : Text} {a b : Directive} (ha : Stands t a) (hb : Stands t b)
    (hInclude : a.kind = .includeFile ∨ a.kind = .extendFile) (hWidget : b.kind = .widget) :
    a.addressSpan.start ≠ b.addressSpan.start := by
  intro hStart
  obtain ⟨x, written, x', written', hText, hA, hB⟩ := ha.names_meet hb hStart
  have hFile : written = "file".toList := by
    rcases hInclude with h | h <;>
    · rw [h] at hA
      exact eq_of_forall₂_exactly hA
  have hName : written' = "name".toList := by
    rw [hWidget] at hB
    exact eq_of_forall₂_exactly hB
  have hFileChars : "file".toList = ['f', 'i', 'l', 'e'] := rfl
  have hNameChars : "name".toList = ['n', 'a', 'm', 'e'] := rfl
  rw [hFile, hName, hFileChars, hNameChars] at hText
  exact absurd (List.append_inj_right' hText rfl) (by decide)

theorem kind_of_mem_scanEmbeds {t : Text} {a : Directive} (h : a ∈ scanEmbeds t) :
    a.kind.isEmbed = true :=
  kind_of_mem_scanFrom (P := fun kind => kind.isEmbed = true)
    (fun _ _ _ hRead => kind_of_readEmbed hRead) h

theorem kind_of_mem_scanRequires {t : Text} {a : Directive} (h : a ∈ scanRequires t) :
    a.kind = .requireScript ∨ a.kind = .requireStyle := by
  have := kind_of_mem_scanFrom (fun _ _ _ hRead => kind_of_readExpression hRead) h
  simpa using this

theorem kind_of_mem_scanIncludes {t : Text} {a : Directive} (h : a ∈ scanIncludes t) :
    a.kind = .includeFile ∨ a.kind = .extendFile := by
  have := kind_of_mem_scanFrom (fun _ _ _ hRead => kind_of_readExpression hRead) h
  simpa using this

theorem kind_of_mem_scanWidgets {t : Text} {a : Directive} (h : a ∈ scanWidgets t) :
    a.kind = .widget := by
  have := kind_of_mem_scanFrom (fun _ _ _ hRead => kind_of_readExpression hRead) h
  simpa using this

/-- No two directives of a pass have addresses that start at the same byte. -/
theorem pairwise_scan (pass : Pass) (t : Text) :
    (scan pass t).Pairwise fun a b => a.addressSpan.start ≠ b.addressSpan.start := by
  unfold scan
  rw [(List.mergeSort_perm _ _).pairwise_iff fun h => h.symm]
  cases pass with
  | identity =>
    refine List.pairwise_append.mpr ⟨pairwise_scanFrom_start sound_readEmbed t,
      pairwise_scanFrom_start sound_readRequire t, ?_⟩
    intro a ha b hb
    exact (stands_of_mem_scanFrom sound_readEmbed [] ha).1.start_ne_of_embed
      (stands_of_mem_scanFrom sound_readRequire [] hb).1 (kind_of_mem_scanEmbeds ha)
      (kind_of_mem_scanRequires hb)
  | relative =>
    refine List.pairwise_append.mpr ⟨pairwise_scanFrom_start sound_readInclude t,
      pairwise_scanFrom_start sound_readWidget t, ?_⟩
    intro a ha b hb
    exact (stands_of_mem_scanFrom sound_readInclude [] ha).1.start_ne_of_widget
      (stands_of_mem_scanFrom sound_readWidget [] hb).1 (kind_of_mem_scanIncludes ha)
      (kind_of_mem_scanWidgets hb)

/-! ## Passes -/

/-- Whatever the text, the spans of the directives of a pass are exact, and the directives are of
the pass. They come in order of start, from two scanners, and those that come from the same scanner
are not empty and lie one behind the other. -/
theorem scan_exact (pass : Pass) (t : Text) :
    (∀ a ∈ scan pass t, Exact t a ∧ a.kind.pass = pass) ∧
    (scan pass t).Pairwise (fun a b => a.span.start ≤ b.span.start) ∧
    (scan pass t).Perm (pass.scanners.flatMap fun scanner => scanner t) ∧
    ∀ scanner ∈ pass.scanners, (scanner t).Sublist (scan pass t) ∧
      (∀ a ∈ scanner t, a.span.start < a.span.stop) ∧
      (scanner t).Pairwise fun a b => a.span.stop ≤ b.span.start := by
  refine ⟨fun a ha => ⟨(stands_of_mem_scan ha).exact, pass_of_mem_scan ha⟩, ?_, ?_, ?_⟩
  · rw [scan_eq]
    exact pairwise_start_mergeSort Directive.span _
  · rw [scan_eq]
    exact List.mergeSort_perm ..
  · intro scanner hScanner
    obtain ⟨hOrder, hNonempty⟩ := pairwise_scanner hScanner t
    exact ⟨scanner_sublist_scan hScanner t, hNonempty, hOrder⟩

/-- A tag and a request that touch, with characters of two bytes. -/
theorem scan_exact_page :
    let t := "ä<img src=\"b.png\"/>\x7b\x7bbrisk_require_css name='ö.css'\x7d\x7d".toList
    let image : Directive :=
      { kind := .image
        address := "b.png".toList
        addressSpan := ⟨12, 17⟩
        span := ⟨2, 20⟩
        quote := '"' }
    let style : Directive :=
      { kind := .requireStyle
        address := "ö.css".toList
        addressSpan := ⟨46, 52⟩
        span := ⟨20, 55⟩
        quote := '\'' }
    image ∈ scan .identity t ∧ Exact t image ∧ style ∈ scan .identity t ∧ Exact t style := by
  intro t image style
  have hImage : image ∈ scan .identity t :=
    mem_scan_iff.mpr ⟨scanEmbeds, List.mem_cons_self, by decide +kernel⟩
  have hStyle : style ∈ scan .identity t :=
    mem_scan_iff.mpr ⟨scanRequires, List.mem_cons_of_mem _ List.mem_cons_self, by decide +kernel⟩
  obtain ⟨hExact, -⟩ := scan_exact .identity t
  exact ⟨hImage, (hExact image hImage).1, hStyle, (hExact style hStyle).1⟩

end Directive

end AssetLoom
