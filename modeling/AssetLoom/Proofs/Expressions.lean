import AssetLoom.Address
import AssetLoom.Proofs.Scanning

/-!
# Expressions as they are written

`Expression` is an expression of one family as an author writes it: the keyword, an attribute that
may stand among others, and its address in quotes. Of a text in which such expressions stand
between gaps without an opening mark, the scan of the family finds exactly these
(`Family.scan_woven`), with the places of their addresses.

What a scan finds ends at the first closing mark outside the address
(`Family.closeMark_only_at_end_iff`). An address that holds a closing mark takes the expression
on, even into another one (`address_swallows_expression`).
-/

namespace AssetLoom.Directive

open Text (byteLength)

/-- The families of expressions that refer to a resource. -/
inductive Family
  | includes
  | requires
  | widgets
  deriving DecidableEq, Repr

namespace Family

/-- The keywords of a family, and the kinds of directives that they start. -/
def keywords : Family → List (String × DirectiveKind)
  | includes => [("include", .includeFile), ("extends", .extendFile)]
  | requires => [("brisk_require_js", .requireScript), ("brisk_require_css", .requireStyle)]
  | widgets => [("brisk_widget", .widget)]

/-- The name of the attribute with the address. -/
def attributeName : Family → String
  | includes => "file"
  | requires | widgets => "name"

/-- The quotes that may stand around the address. -/
def quotes : Family → List Char
  | includes => ['"']
  | requires | widgets => ['"', '\'']

/-- The directives of the family in a text. -/
def scan : Family → Text → List Directive
  | includes => scanIncludes
  | requires => scanRequires
  | widgets => scanWidgets

/-- How the attribute with the address is read. -/
def form (family : Family) : AttributeForm :=
  expressionAttribute family.attributeName.toList family.quotes

theorem scan_eq (family : Family) (t : Text) :
    family.scan t = scanFrom (readExpression family.keywords family.form) 0 0 t := by
  cases family <;> rfl

theorem sound (family : Family) : Sound (readExpression family.keywords family.form) := by
  cases family
  · exact sound_readInclude
  · exact sound_readRequire
  · exact sound_readWidget

variable {family : Family}

/-- A keyword starts with a letter, neither with a blank nor with a brace. -/
theorem keyword_eq_cons {keyword : String} {kind : DirectiveKind}
    (h : (keyword, kind) ∈ family.keywords) : ∃ c rest, keyword.toList = c :: rest ∧
      Text.isBlank c = false ∧ c ≠ '{' ∧ '}' ∉ keyword.toList := by
  have hAll : ∀ p ∈ family.keywords,
      p.1.toList.head?.any (fun c => !Text.isBlank c && c != '{') = true ∧ '}' ∉ p.1.toList := by
    cases family <;> decide
  obtain ⟨hFirst, hBrace⟩ := hAll _ h
  obtain ⟨c, hHead, hPlain⟩ := Option.any_eq_true .. |>.mp hFirst
  obtain ⟨rest, hText⟩ := List.head?_eq_some_iff.mp hHead
  simp only [Bool.and_eq_true, Bool.not_eq_true', bne_iff_ne] at hPlain
  exact ⟨c, rest, hText, hPlain.1, hPlain.2, hBrace⟩

/-- No keyword of a family is the front of another one. -/
theorem pairwise_keywords (family : Family) : family.keywords.Pairwise fun a b =>
    ¬ (a.1.toList <+: b.1.toList ∨ b.1.toList <+: a.1.toList) := by
  cases family <;> decide

/-- The name of the attribute holds neither blanks nor braces, and no brace is a quote. -/
theorem attributeName_plain (family : Family) :
    (∀ n ∈ family.attributeName.toList, Text.isBlank n = false ∧ n ≠ '}') ∧
      '}' ∉ family.quotes := by
  have hName : family.attributeName.toList.all (fun n => !Text.isBlank n && n != '}') = true := by
    cases family <;> decide
  refine ⟨fun n hn => ?_, by cases family <;> decide⟩
  simpa using List.all_eq_true.mp hName n hn

theorem solid_form (family : Family) : family.form.Solid := by
  intro n hn c hc
  have hPlain := (family.attributeName_plain.1 n hn).1
  simp only [form, expressionAttribute, exactly, beq_eq_false_iff_ne]
  rintro rfl
  simp [hPlain] at hc

end Family

/-- An expression of a family, as it is written. -/
structure Expression (family : Family) where
  /-- The blanks behind the opening mark. -/
  blanks : Text
  keyword : String
  kind : DirectiveKind
  /-- What stands between the keyword and the attribute with the address. -/
  between : Text
  /-- The blank before the name of the attribute. -/
  blank : Char
  quote : Char
  address : Text
  /-- What stands between the address and the closing mark. -/
  rest : Text
  keyword_mem : (keyword, kind) ∈ family.keywords
  blanks_blank : ∀ c ∈ blanks, Text.isBlank c = true
  between_head : ∀ c ∈ between.head?, Text.isWord c = false
  brace_notMem_between : '}' ∉ between
  /-- The attribute does not stand there already. -/
  between_free : ∀ x c y, between = x ++ c :: (family.attributeName.toList ++ '=' :: y) →
    Text.isBlank c = false
  blank_blank : Text.isBlank blank = true
  quote_mem : quote ∈ family.quotes
  quote_notMem : quote ∉ address
  brace_notMem_rest : '}' ∉ rest

namespace Expression

variable {family : Family} (e : Expression family)

/-- The expression up to its address. -/
def lead : Text :=
  openMark.toList ++ e.blanks ++ e.keyword.toList ++ e.between ++
    e.blank :: family.attributeName.toList ++ ['=', e.quote]

/-- The text of the expression. -/
def text : Text :=
  e.lead ++ e.address ++ e.quote :: e.rest ++ closeMark.toList

/-- The directive that the expression is, when it starts at a byte offset. -/
def directive (offset : Nat) : Directive where
  kind := e.kind
  address := e.address
  addressSpan :=
    ⟨offset + byteLength e.lead, offset + byteLength e.lead + byteLength e.address⟩
  span := ⟨offset, offset + byteLength e.text⟩
  quote := e.quote

/-- The expression, cut at its address. -/
def cut : Cut where
  lead := e.lead
  quote := e.quote
  address := e.address
  tail := e.quote :: (e.rest ++ closeMark.toList)

theorem text_cut : e.cut.text = e.text := by
  simp [cut, text, Cut.text]

theorem ofCut_cut (offset : Nat) : ofCut offset e.kind e.cut = e.directive offset := by
  rw [ofCut, text_cut]
  rfl

end Expression

/-! ## Reading an expression -/

/-- Behind the blanks of an expression stands its keyword. -/
theorem keyword_prefix_of_cutExpression? {keyword : Text} {form : AttributeForm} {t : Text}
    {cut : Cut} (h : cutExpression? keyword form ('{' :: '{' :: t) = some cut) :
    keyword <+: t.dropWhile Text.isBlank := by
  rw [cutExpression?] at h
  split at h
  · next left hStrip =>
    obtain ⟨written, hWritten, hSame⟩ := stripName?_eq_some hStrip
    obtain rfl := eq_of_forall₂_exactly hSame
    exact ⟨left, hWritten.symm⟩
  · cases h

theorem cutExpression?_of_written {keyword blanks left : Text} {form : AttributeForm} {c : Char}
    {name : Text} {inner : Cut} (hKeyword : keyword = c :: name) (hc : Text.isBlank c = false)
    (hBlanks : ∀ c ∈ blanks, Text.isBlank c = true) (hWord : endsWord left = true)
    (hInner : findAttribute? form throughBraces? left = some inner) :
    cutExpression? keyword form ('{' :: '{' :: (blanks ++ keyword ++ left)) =
      some (inner.prepend ('{' :: '{' :: (blanks ++ keyword))) := by
  have hStrip : stripName? exactly keyword
      ((blanks ++ keyword ++ left).dropWhile Text.isBlank) = some left := by
    rw [List.append_assoc, hKeyword, List.cons_append, Text.dropWhile_isBlank_append hBlanks hc,
      ← List.cons_append]
    exact stripName?_append (forall₂_exactly _) left
  have hTake : (blanks ++ keyword ++ left).takeWhile Text.isBlank = blanks := by
    rw [List.append_assoc, hKeyword, List.cons_append, Text.takeWhile_isBlank_append hBlanks hc]
  rw [cutExpression?, hStrip]
  simp only [hWord, if_true, hInner, Option.map_some, hTake, List.cons_append]

namespace Expression

variable {family : Family} (e : Expression family)

theorem text_append (rest : Text) : e.text ++ rest =
    '{' :: '{' :: (e.blanks ++ e.keyword.toList ++ (e.between ++
      e.blank :: (family.attributeName.toList ++ '=' :: e.quote ::
        (e.address ++ e.quote :: (e.rest ++ (closeMark.toList ++ rest)))))) := by
  simp [text, lead, openMark]

/-- The attribute with the address is the first one of its name. -/
theorem not_begins {x y : Text} (hSplit : e.between = x ++ y) : ¬ family.form.Begins y := by
  rintro ⟨blank, written, value, hBlank, hWritten, rfl⟩
  obtain rfl : written = family.attributeName.toList := eq_of_forall₂_exactly hWritten
  rw [e.between_free x blank value hSplit] at hBlank
  cases hBlank

theorem cutExpression?_eq (rest : Text) :
    cutExpression? e.keyword.toList family.form (e.text ++ rest) = some e.cut := by
  obtain ⟨c, name, hKeyword, hc, -⟩ := Family.keyword_eq_cons e.keyword_mem
  have hFinish : throughBraces? (e.rest ++ (closeMark.toList ++ rest)) =
      some (e.rest ++ closeMark.toList) :=
    throughBraces?_eq_some_iff.mpr ⟨e.rest, rest, e.brace_notMem_rest, rfl, rfl⟩
  have hName : List.Forall₂ (fun n c => family.form.same n c = true) family.form.name
      family.attributeName.toList := forall₂_exactly _
  have hFind := findAttribute?_of_written family.solid_form e.brace_notMem_between
    (fun _ _ => e.not_begins) e.blank_blank hName e.quote_mem e.quote_notMem hFinish
  have hCut := cutExpression?_of_written hKeyword hc e.blanks_blank
    (endsWord_append e.between_head e.blank_blank _) hFind
  rw [e.text_append, hCut]
  simp [cut, lead, Cut.prepend, openMark]

/-- Behind the blanks of a written expression only its own keyword is read. -/
theorem cutExpression?_eq_none {keyword : String} {form : AttributeForm} (rest : Text)
    (hApart : ¬ (keyword.toList <+: e.keyword.toList ∨ e.keyword.toList <+: keyword.toList)) :
    cutExpression? keyword.toList form (e.text ++ rest) = none := by
  rw [Option.eq_none_iff_forall_ne_some]
  intro cut hCut
  obtain ⟨c, name, hKeyword, hc, -⟩ := Family.keyword_eq_cons e.keyword_mem
  rw [e.text_append] at hCut
  have hPrefix := keyword_prefix_of_cutExpression? hCut
  rw [List.append_assoc, hKeyword, List.cons_append,
    Text.dropWhile_isBlank_append e.blanks_blank hc, ← List.cons_append, ← hKeyword] at hPrefix
  exact hApart (List.prefix_or_prefix_of_prefix hPrefix (List.prefix_append ..))

/-- The readers of the family read a written expression, whatever follows it. -/
theorem readExpression_eq (rest : Text) :
    readExpression family.keywords family.form (e.text ++ rest) = some (e.kind, e.cut) := by
  obtain ⟨before, behind, hKeywords⟩ := List.append_of_mem e.keyword_mem
  have hApart := family.pairwise_keywords
  rw [hKeywords] at hApart
  refine List.findSome?_eq_some_iff.mpr ⟨before, _, behind, hKeywords, ?_, ?_⟩
  · simp only [e.cutExpression?_eq, Option.map_some]
  · rintro ⟨keyword, kind⟩ hMem
    have hOther := (List.pairwise_append.mp hApart).2.2 _ hMem _ List.mem_cons_self
    simp only [e.cutExpression?_eq_none rest hOther, Option.map_none]

end Expression

namespace Family

variable {family : Family}

/-- Nothing is read in a gap without an opening mark, also where its last character and the
expression behind it make one. -/
theorem passesOver {gap : Text} (hGap : ¬ openMark.toList <:+: gap)
    (es : List (Expression family × Text)) :
    PassesOver (readExpression family.keywords family.form) gap (woven Expression.text es) := by
  intro x y hSplit hNonempty
  refine List.findSome?_eq_none_iff.mpr ?_
  rintro ⟨keyword, kind⟩ hMem
  rw [Option.map_eq_none_iff, Option.eq_none_iff_forall_ne_some]
  intro cut hCut
  obtain ⟨c, name, hKeyword, -, hBrace, -⟩ := keyword_eq_cons hMem
  obtain ⟨blanks, left, -, -, hText, -⟩ := exists_of_cutExpression? hCut
  obtain ⟨first, y, rfl⟩ := List.exists_cons_of_ne_nil hNonempty
  obtain ⟨rfl, hRest⟩ := List.cons.inj hText
  cases y with
  | cons second y =>
    obtain ⟨rfl, -⟩ := List.cons.inj hRest
    exact hGap ⟨x, y, by rw [hSplit]; exact List.append_assoc ..⟩
  | nil =>
    cases es with
    | nil => cases hRest
    | cons p es =>
      -- The mark is made of the last brace of the gap and the first one of the expression.
      obtain ⟨t, hFollow⟩ : ∃ t, [] ++ woven Expression.text (p :: es) = '{' :: '{' :: t := ⟨_, rfl⟩
      rw [List.cons_append, hFollow] at hCut
      obtain ⟨behind, hPrefix⟩ := keyword_prefix_of_cutExpression? hCut
      rw [List.dropWhile_cons_of_neg (by decide), hKeyword] at hPrefix
      exact hBrace (List.cons.inj hPrefix).1

/-- Of a text in which expressions of a family stand between gaps without an opening mark, the
scan finds each expression at its place, and nothing else. -/
theorem scan_woven {gap : Text} {es : List (Expression family × Text)}
    (hGap : ¬ openMark.toList <:+: gap) (hEach : ∀ p ∈ es, ¬ openMark.toList <:+: p.2) :
    family.scan (gap ++ woven Expression.text es) =
      placed Expression.text Expression.directive (byteLength gap) es := by
  rw [scan_eq, (passesOver hGap es).scanFrom_eq, Nat.zero_add]
  refine scanFrom_woven (fun gap es hGap => passesOver hGap es) ?_ hEach _
  intro e gap es _
  refine ⟨e.kind, e.cut, e.text_cut, ?_, e.readExpression_eq _, e.ofCut_cut⟩
  rw [e.text_cut]
  exact List.cons_ne_nil _ _

/-- Two requests for scripts and styles. The gap before each of them ends with a brace. -/
theorem scan_woven_requires :
    ∃ script style : Expression .requires,
      script.text = ['{', '{'] ++ " brisk_require_js a\nname='lib/ä.js' b".toList ++ ['}', '}'] ∧
      style.text = ['{', '{'] ++ "brisk_require_css name=\"".toList ++ ['}', '}'] ++
        ".css\"".toList ++ ['}', '}'] ∧
      Family.requires.scan
          (['a', '{'] ++ woven Expression.text [(script, ['}', '{']), (style, [])]) =
        [{ kind := .requireScript, address := "lib/ä.js".toList, addressSpan := ⟨30, 39⟩
           span := ⟨2, 44⟩, quote := '\'' },
         { kind := .requireStyle, address := ['}', '}'] ++ ".css".toList, addressSpan := ⟨72, 78⟩
           span := ⟨46, 81⟩, quote := '"' }] := by
  let script : Expression .requires :=
    { blanks := [' '], keyword := "brisk_require_js", kind := .requireScript,
      between := " a".toList, blank := '\n', quote := '\'', address := "lib/ä.js".toList,
      rest := " b".toList
      keyword_mem := by decide
      blanks_blank := List.forall_mem_singleton.mpr (by decide)
      between_head := by rintro c ⟨⟩; decide
      brace_notMem_between := by decide
      between_free := fun x c y h => by
        have := congrArg List.length h
        simp [Family.attributeName] at this
        omega
      blank_blank := by decide, quote_mem := by decide, quote_notMem := by decide
      brace_notMem_rest := by decide }
  let style : Expression .requires :=
    { blanks := [], keyword := "brisk_require_css", kind := .requireStyle, between := []
      blank := ' ', quote := '"', address := closeMark.toList ++ ".css".toList, rest := []
      keyword_mem := by decide, blanks_blank := by simp, between_head := by simp
      brace_notMem_between := by decide, between_free := by simp
      blank_blank := by decide, quote_mem := by decide, quote_notMem := by decide
      brace_notMem_rest := by decide }
  have hGaps : ∀ p ∈ [(script, ['}', '{']), (style, [])], ¬ openMark.toList <:+: p.2 := by
    decide +kernel
  refine ⟨script, style, by decide +kernel, by decide +kernel, ?_⟩
  rw [Family.scan_woven (by decide) hGaps]
  decide +kernel

/-! ## Where an expression ends -/

/-- What is read ends with a closing mark. Outside the address it holds no brace before that. -/
theorem exists_of_readExpression {t : Text} {kind : DirectiveKind} {cut : Cut}
    (h : readExpression family.keywords family.form t = some (kind, cut)) :
    '}' ∉ cut.lead ∧ cut.quote ≠ '}' ∧
      ∃ rest, '}' ∉ rest ∧ cut.tail = cut.quote :: (rest ++ closeMark.toList) := by
  obtain ⟨⟨keyword, kind'⟩, hMem, hCut⟩ := List.exists_of_findSome?_eq_some h
  simp only [Option.map_eq_some_iff, Prod.mk.injEq] at hCut
  obtain ⟨_, hCut, -, rfl⟩ := hCut
  obtain ⟨c, name, -, -, -, hKeyword⟩ := keyword_eq_cons hMem
  obtain ⟨blanks, left, inner, hBlanks, -, -, hFind, rfl⟩ := exists_of_cutExpression? hCut
  obtain ⟨front, behind, inner, -, hFront, -, hAttribute, rfl⟩ :=
    findAttribute?_eq_some_iff.mp hFind
  obtain ⟨blank, written, quote, address, left, tail, hBlank, hWritten, hQuote, -, -, hFinish,
    rfl⟩ := cutAttribute?_eq_some_iff.mp hAttribute
  obtain rfl : written = family.attributeName.toList := eq_of_forall₂_exactly hWritten
  obtain ⟨rest, -, hRest, -, rfl⟩ := throughBraces?_eq_some_iff.mp hFinish
  have hBlank' : ∀ c, Text.isBlank c = true → c ≠ '}' := by
    rintro c hc rfl
    revert hc
    decide
  have hBlanks' : '}' ∉ blanks := fun h => hBlank' _ (hBlanks _ h) rfl
  have hFront' : '}' ∉ front := hFront
  have hName : '}' ∉ family.attributeName.toList :=
    fun hn => (family.attributeName_plain.1 _ hn).2 rfl
  have hQuote' : quote ≠ '}' := fun h => family.attributeName_plain.2 (h ▸ hQuote)
  refine ⟨?_, hQuote', rest, hRest, rfl⟩
  simp [Cut.prepend, hBlanks', hKeyword, hFront', hName, (hBlank' _ hBlank).symm, hQuote'.symm]

/-- Two braces in an expression are those at its end, or stand in the address. -/
theorem closeMark_at_end_or_in_address {lead address rest x y : Text} {quote : Char} (hLead : '}' ∉ lead)
    (hQuote : quote ≠ '}') (hRest : '}' ∉ rest)
    (h : lead ++ (address ++ quote :: (rest ++ closeMark.toList)) = x ++ '}' :: '}' :: y) :
    y = [] ∨ closeMark.toList <:+: address := by
  obtain ⟨x, rfl, hBehind⟩ := Text.append_eq_append_cons hLead h
  rcases List.append_eq_append_iff.mp hBehind with ⟨z, rfl, hTail⟩ | ⟨z, hInside, hTail⟩
  · -- They come behind the address.
    cases z with
    | nil => exact absurd (List.cons.inj hTail).1 hQuote
    | cons quote z =>
      obtain ⟨w, -, hMark⟩ := Text.append_eq_append_cons hRest (List.cons.inj hTail).2
      have hLength := congrArg List.length hMark
      have hTwo : closeMark.toList.length = 2 := rfl
      simp only [hTwo, List.length_append, List.length_cons] at hLength
      exact .inl (List.length_eq_zero_iff.mp (by omega))
  · -- They start in the address, and end there, since the quote behind it is no brace.
    rcases z with _ | ⟨c, _ | ⟨d, z⟩⟩
    · exact absurd (List.cons.inj hTail).1.symm hQuote
    · exact absurd (List.cons.inj (List.cons.inj hTail).2).1.symm hQuote
    · obtain ⟨rfl, hNext⟩ := List.cons.inj hTail
      obtain rfl := (List.cons.inj hNext).1
      exact .inr ⟨x, z, (List.append_assoc ..).trans hInside.symm⟩

/-- A directive that the scan of a family finds ends with a closing mark, and has no other one
exactly if there is none in its address. -/
theorem closeMark_only_at_end_iff {t : Text} {found : Directive} (h : found ∈ family.scan t) :
    closeMark.toList <:+ found.source t ∧
      ((∀ x y, found.source t = x ++ closeMark.toList ++ y → y = []) ↔
        ¬ closeMark.toList <:+: found.address) := by
  rw [scan_eq] at h
  obtain ⟨front, t, kind, cut, rfl, -, hRead, rfl⟩ := exists_read_of_mem_scanFrom h
  obtain ⟨⟨behind, rfl⟩, -⟩ := family.sound _ _ _ hRead
  obtain ⟨hLead, hQuote, rest, hRest, hTail⟩ := exists_of_readExpression hRead
  have hSource : (ofCut (0 + byteLength front) kind cut).source (front ++ (cut.text ++ behind)) =
      cut.lead ++ (cut.address ++ cut.quote :: (rest ++ closeMark.toList)) := by
    have hSlice := Text.slice?_append front cut.text behind
    rw [source, ofCut, Nat.zero_add, ← List.append_assoc front, hSlice, Option.getD_some, Cut.text,
      hTail, List.append_assoc]
  rw [hSource]
  refine ⟨⟨cut.lead ++ cut.address ++ cut.quote :: rest, by simp⟩, ?_, ?_⟩
  · rintro hEnd ⟨x, y, hAddress⟩
    have hAddress' : cut.address = x ++ closeMark.toList ++ y := hAddress.symm
    have := hEnd (cut.lead ++ x) (y ++ cut.quote :: (rest ++ closeMark.toList))
      (by simp [hAddress'])
    simp at this
  · intro hAddress x y hText
    rw [List.append_assoc x] at hText
    exact (closeMark_at_end_or_in_address hLead hQuote hRest hText).resolve_right hAddress

/-- An include with a note behind its address. -/
theorem closeMark_only_at_end_note :
    let t := ['a', '{', '{'] ++ "include file=\"b.tpl\" c".toList ++ ['}', '}', '}', '}']
    ∃ found ∈ Family.includes.scan t, closeMark.toList <:+ found.source t ∧
      ∀ x y, found.source t = x ++ closeMark.toList ++ y → y = [] := by
  intro t
  obtain ⟨found, hFound, hAddress⟩ : ∃ found ∈ Family.includes.scan t,
      ¬ closeMark.toList <:+: found.address := by decide +kernel
  have hEnd := closeMark_only_at_end_iff hFound
  exact ⟨found, hFound, hEnd.1, hEnd.2.mpr hAddress⟩

/-- An include whose address lacks its closing quote goes on through the next include, and takes
it along, although its address holds no template syntax. -/
theorem address_swallows_expression :
    let first := ['{', '{'] ++ "include file=\"a.tpl".toList ++ closeMark.toList
    let second := ['{', '{'] ++ "include file=\"b.tpl\"".toList ++ closeMark.toList
    let address := "a.tpl".toList ++ closeMark.toList ++ ['{', '{'] ++ "include file=".toList
    let found : Directive :=
      { kind := .includeFile, address, addressSpan := ⟨16, 38⟩, span := ⟨0, 47⟩, quote := '"' }
    Family.includes.scan (first ++ second) = [found] ∧
      Text.hasTemplateSyntax found.address = false ∧
      found.source (first ++ second) = first ++ second := by
  decide +kernel

end Family

end AssetLoom.Directive
