import AssetLoom.Proofs.Scanning

/-!
# Tags as they are written

`Element` is a tag that embeds a resource as an author writes it: its name in any case, the
attribute with the address among others, and the ending that its kind asks for, which for a script
is its body with the closing tag. Of a text in which such tags stand between gaps without an angle
bracket, the scan finds exactly these (`scanEmbeds_woven`), with the places of their addresses.
-/

namespace AssetLoom.Directive

open Text (byteLength)

namespace Tag

/-- The kind of directive that the tag is. -/
def kind : Tag → DirectiveKind
  | script => .script
  | link => .link
  | image => .image

/-- A closing tag, as it is written. -/
structure Closing (tag : Tag) where
  /-- The name of the tag, in any case. -/
  name : Text
  /-- The blanks before the bracket at the end. -/
  blanks : Text
  name_same : List.Forall₂ (fun n c => inAnyCase n c = true) tag.name name
  blanks_blank : ∀ c ∈ blanks, Text.isBlank c = true

/-- The text of the closing tag. -/
def Closing.text {tag : Tag} (closing : Closing tag) : Text :=
  '<' :: '/' :: (closing.name ++ closing.blanks ++ ['>'])

/-- What stands behind the attributes of a tag, as it is written. -/
inductive Ending : Tag → Type
  /-- A body in which the name of no closing tag stands, and the closing tag. -/
  | body (inner : Text) (closing : Closing .script)
      (free : ∀ x name y, inner = x ++ '<' :: '/' :: (name ++ y) →
        ¬ List.Forall₂ (fun n c => inAnyCase n c = true) Tag.script.name name) : Ending .script
  /-- The end of the opening tag. -/
  | opened : Ending .link
  /-- The end of the opening tag, and the closing tag behind some blanks. -/
  | closed (blanks : Text) (closing : Closing .link)
      (blank : ∀ c ∈ blanks, Text.isBlank c = true) : Ending .link
  /-- The end of a tag that has no closing tag. -/
  | selfClosed : Ending .image

/-- The text of the ending. -/
def Ending.text {tag : Tag} : Ending tag → Text
  | body inner closing _ => '>' :: (inner ++ closing.text)
  | opened => ['>']
  | closed blanks closing _ => '>' :: (blanks ++ closing.text)
  | selfClosed => ['/', '>']

end Tag

/-- A tag that embeds a resource, as it is written. -/
structure Element where
  tag : Tag
  /-- The name of the tag, in any case. -/
  name : Text
  /-- What stands between the name and the attribute with the address. -/
  between : Text
  /-- The blank before the name of the attribute. -/
  blank : Char
  /-- The name of the attribute, in any case. -/
  attributeName : Text
  address : Text
  /-- What stands between the address and the end of the opening tag. -/
  rest : Text
  ending : Tag.Ending tag
  name_same : List.Forall₂ (fun n c => inAnyCase n c = true) tag.name name
  between_head : ∀ c ∈ between.head?, Text.isWord c = false
  bracket_notMem_between : '>' ∉ between
  /-- The attribute does not stand there already. -/
  between_free : ∀ x y, between = x ++ y → ¬ tag.form.Begins y
  blank_blank : Text.isBlank blank = true
  attributeName_same : List.Forall₂ (fun n c => inAnyCase n c = true) tag.form.name attributeName
  quote_notMem : '"' ∉ address
  bracket_notMem_rest : '>' ∉ rest

namespace Element

variable (e : Element)

/-- The tag up to its address. -/
def lead : Text :=
  '<' :: e.name ++ e.between ++ e.blank :: e.attributeName ++ ['=', '"']

/-- The text of the tag. -/
def text : Text :=
  e.lead ++ e.address ++ '"' :: e.rest ++ e.ending.text

/-- The directive that the tag is, when it starts at a byte offset. -/
def directive (offset : Nat) : Directive where
  kind := e.tag.kind
  address := e.address
  addressSpan :=
    ⟨offset + byteLength e.lead, offset + byteLength e.lead + byteLength e.address⟩
  span := ⟨offset, offset + byteLength e.text⟩
  quote := '"'

/-- The tag, cut at its address. -/
def cut : Cut where
  lead := e.lead
  quote := '"'
  address := e.address
  tail := '"' :: (e.rest ++ e.ending.text)

theorem text_cut : e.cut.text = e.text := by
  simp [cut, text, Cut.text]

theorem ofCut_cut (offset : Nat) : ofCut offset e.tag.kind e.cut = e.directive offset := by
  rw [ofCut, text_cut]
  rfl

end Element

/-! ## Reading a tag -/

namespace Tag

variable {tag : Tag}

/-- The name of a tag holds letters only, in whatever case. -/
theorem notMem_of_same {written : Text}
    (hSame : List.Forall₂ (fun n c => inAnyCase n c = true) tag.name written) :
    '<' ∉ written ∧ '/' ∉ written := by
  have hName : tag.name.all (fun n => !inAnyCase n '<' && !inAnyCase n '/') = true := by
    cases tag <;> decide
  constructor <;> intro hMem <;> obtain ⟨n, hn, hChar⟩ := exists_of_mem_forall₂ hSame hMem
  all_goals
    have hOther := List.all_eq_true.mp hName n hn
    simp [hChar] at hOther

theorem solid_form (tag : Tag) : tag.form.Solid := by
  intro n hn c hc
  have hPlain : tag.form.name.all (fun n => !Text.isBlank n) = true := by cases tag <;> decide
  show inAnyCase n c = false
  rw [inAnyCase, Text.fold_of_isBlank hc, beq_eq_false_iff_ne]
  rintro rfl
  have hOther := List.all_eq_true.mp hPlain c hn
  simp [hc] at hOther

theorem head?_of_same {written : Text}
    (hSame : List.Forall₂ (fun n c => inAnyCase n c = true) tag.name written) (t : Text) :
    (written ++ t).head?.map Text.fold = tag.name.head? := by
  cases tag <;>
  · obtain ⟨c, rest, hChar, -, rfl⟩ := List.forall₂_cons_left_iff.mp hSame
    exact congrArg some (beq_iff_eq.mp hChar)

/-- Tags with different names do not stand at the same place. -/
theorem cut?_eq_none_of_ne {other : Tag} {written : Text} (hNe : other ≠ tag)
    (hSame : List.Forall₂ (fun n c => inAnyCase n c = true) tag.name written) (t : Text) :
    other.cut? ('<' :: (written ++ t)) = none := by
  have hStrip : stripName? inAnyCase other.name (written ++ t) = none := by
    rw [Option.eq_none_iff_forall_ne_some]
    intro rest hRest
    obtain ⟨name, hName, hOther⟩ := stripName?_eq_some hRest
    have hHead := head?_of_same hSame t
    rw [hName, head?_of_same hOther rest] at hHead
    revert hNe hHead
    cases tag <;> cases other <;> decide
  rw [cut?, hStrip]

/-- A tag is read as it is written, if its attribute is found. -/
theorem cut?_of_written {written left : Text} {inner : Cut}
    (hSame : List.Forall₂ (fun n c => inAnyCase n c = true) tag.name written)
    (hWord : endsWord left = true)
    (hInner : findAttribute? tag.form tag.finish? left = some inner) :
    tag.cut? ('<' :: (written ++ left)) = some (inner.prepend ('<' :: written)) := by
  rw [cut?, stripName?_append hSame]
  simp only [hWord, if_true, hInner, Option.map_some, take_of_forall₂ _ hSame]

theorem Closing.closing?_eq (closing : Closing tag) (rest : Text) :
    closing? tag.name (closing.text ++ rest) = some closing.text :=
  closing?_eq_some_iff.mpr ⟨closing.name, closing.blanks, rest, closing.name_same,
    closing.blanks_blank, by simp [text], rfl⟩

theorem throughClosing?_append {name inner t taken : Text}
    (hFree : ∀ x y, inner = x ++ y → y ≠ [] → closing? name (y ++ t) = none)
    (hClosing : closing? name t = some taken) :
    throughClosing? name (inner ++ t) = some (inner ++ taken) := by
  induction inner with
  | nil =>
    obtain ⟨written, blanks, rest, -, -, rfl, rfl⟩ := closing?_eq_some_iff.mp hClosing
    rw [List.nil_append, throughClosing?, hClosing]
    rfl
  | cons c inner ih =>
    have hHere : closing? name (c :: (inner ++ t)) = none := hFree [] (c :: inner) rfl (by simp)
    rw [List.cons_append, throughClosing?, hHere]
    simp only [ih fun x y hSplit => hFree (c :: x) y (by rw [hSplit]; rfl), Option.map_some]
    rfl

/-- The ending of a tag is what finishes it, unless a closing tag follows that may be left out. -/
theorem Ending.finish?_eq (ending : Ending tag) {rest after : Text} (hRest : '>' ∉ rest)
    (hAfter : closing? tag.name (after.dropWhile Text.isBlank) = none) :
    tag.finish? (rest ++ (ending.text ++ after)) = some (rest ++ ending.text) := by
  have hOpening : ∀ left, throughOpening? (rest ++ '>' :: left) = some (rest ++ ['>'], left) :=
    fun left => throughOpening?_eq_some_iff.mpr ⟨rest, hRest, rfl, rfl⟩
  have hBracket : Text.isBlank '<' = false := by decide
  cases ending with
  | body inner closing free =>
    have hFree : ∀ x y, inner = x ++ y → y ≠ [] →
        closing? script.name (y ++ (closing.text ++ after)) = none := by
      intro x y hSplit hNonempty
      rw [Option.eq_none_iff_forall_ne_some]
      intro taken hTaken
      obtain ⟨written, blanks, r, hWritten, -, hText, -⟩ := closing?_eq_some_iff.mp hTaken
      obtain ⟨c, y, rfl⟩ := List.exists_cons_of_ne_nil hNonempty
      obtain ⟨rfl, hTail⟩ := List.cons.inj hText
      -- The name has no bracket, so it does not reach into the closing tag.
      have hWhole : '<' ∉ '/' :: written := by simp [(notMem_of_same hWritten).1]
      obtain ⟨z, rfl, -⟩ := Text.append_eq_append_cons hWhole hTail.symm
      exact free x written z hSplit hWritten
    have hBody : throughClosing? script.name (inner ++ (closing.text ++ after)) =
        some (inner ++ closing.text) := throughClosing?_append hFree (closing.closing?_eq after)
    rw [text, List.cons_append, finish?, hOpening, List.append_assoc]
    simp [hBody]
  | opened =>
    rw [text, List.singleton_append, finish?, hOpening]
    simp only [hAfter]
  | closed blanks closing hBlanks =>
    obtain ⟨t, hText⟩ : ∃ t, closing.text ++ after = '<' :: t := ⟨_, rfl⟩
    have hDrop : (blanks ++ (closing.text ++ after)).dropWhile Text.isBlank =
        closing.text ++ after := by
      rw [hText, Text.dropWhile_isBlank_append hBlanks hBracket]
    have hTake : (blanks ++ (closing.text ++ after)).takeWhile Text.isBlank = blanks := by
      rw [hText, Text.takeWhile_isBlank_append hBlanks hBracket]
    rw [text, List.cons_append, finish?, hOpening, List.append_assoc]
    simp [hDrop, hTake, closing.closing?_eq after]
  | selfClosed =>
    have hSelf : throughOpening? (rest ++ ['/', '>'] ++ after) = some (rest ++ ['/', '>'], after) :=
      throughOpening?_eq_some_iff.mpr ⟨rest ++ ['/'], by simp [hRest], by simp, by simp⟩
    have hSuffix : ['/', '>'].isSuffixOf (rest ++ ['/', '>']) = true :=
      List.isSuffixOf_iff_suffix.mpr (List.suffix_append ..)
    rw [text, ← List.append_assoc, finish?, hSelf]
    simp only [hSuffix, if_true]

end Tag

namespace Element

variable (e : Element)

theorem text_append (rest : Text) : e.text ++ rest =
    '<' :: (e.name ++ (e.between ++ e.blank :: (e.attributeName ++ '=' :: '"' ::
      (e.address ++ '"' :: (e.rest ++ (e.ending.text ++ rest)))))) := by
  simp [text, lead]

/-- A letter stands behind the bracket that a tag starts with. -/
theorem exists_text_append (rest : Text) : ∃ c t, e.text ++ rest = '<' :: c :: t ∧ c ≠ '/' := by
  have hNonempty : e.name ≠ [] := by
    intro hNil
    have hLength := e.name_same.length_eq
    rw [hNil] at hLength
    revert hLength
    cases e.tag <;> decide
  obtain ⟨c, name, hName⟩ := List.exists_cons_of_ne_nil hNonempty
  refine ⟨c, _, by rw [e.text_append, hName]; rfl, ?_⟩
  rintro rfl
  exact (Tag.notMem_of_same e.name_same).2 (by simp [hName])

theorem cut?_eq {rest : Text}
    (hRest : Tag.closing? e.tag.name (rest.dropWhile Text.isBlank) = none) :
    e.tag.cut? (e.text ++ rest) = some e.cut := by
  have hFind := findAttribute?_of_written e.tag.solid_form e.bracket_notMem_between
    e.between_free e.blank_blank e.attributeName_same (List.mem_singleton.mpr rfl) e.quote_notMem
    (e.ending.finish?_eq e.bracket_notMem_rest hRest)
  have hWord := endsWord_append e.between_head e.blank_blank
    (e.attributeName ++ '=' :: '"' :: (e.address ++ '"' :: (e.rest ++ (e.ending.text ++ rest))))
  have hCut := Tag.cut?_of_written e.name_same hWord hFind
  rw [e.text_append, hCut]
  simp [cut, lead, Cut.prepend]

/-- The tag is read as it is written, unless its closing tag follows though it is no part of it. -/
theorem readEmbed_eq {rest : Text}
    (hRest : Tag.closing? e.tag.name (rest.dropWhile Text.isBlank) = none) :
    readEmbed (e.text ++ rest) = some (e.tag.kind, e.cut) := by
  have hCut := e.cut?_eq hRest
  have hOther : ∀ other : Tag, other ≠ e.tag → other.cut? (e.text ++ rest) = none := by
    intro other hNe
    rw [e.text_append]
    exact Tag.cut?_eq_none_of_ne hNe e.name_same _
  unfold readEmbed
  cases hTag : e.tag with
  | script =>
    rw [hTag] at hCut
    rw [hCut]
    rfl
  | link =>
    rw [hTag] at hCut hOther
    rw [hOther .script (by decide), hCut]
    rfl
  | image =>
    rw [hTag] at hCut hOther
    rw [hOther .script (by decide), hOther .link (by decide), hCut]
    rfl

end Element

/-! ## Tags between gaps -/

/-- No closing tag begins in a gap without an angle bracket, nor behind it, where a tag does. -/
theorem closing?_woven {name gap : Text} (hGap : '<' ∉ gap) (es : List (Element × Text)) :
    Tag.closing? name ((gap ++ woven Element.text es).dropWhile Text.isBlank) = none := by
  rw [Option.eq_none_iff_forall_ne_some]
  intro taken hTaken
  obtain ⟨written, blanks, rest, -, -, hDrop, -⟩ := Tag.closing?_eq_some_iff.mp hTaken
  have hSplit := List.takeWhile_append_dropWhile (p := Text.isBlank)
    (l := gap ++ woven Element.text es)
  rw [hDrop] at hSplit
  obtain ⟨z, hBlanks, hWoven⟩ := Text.append_eq_append_cons hGap hSplit.symm
  cases es with
  | nil => simp [woven] at hWoven
  | cons p es =>
    obtain ⟨e, behind⟩ := p
    obtain ⟨letter, t, hText, hLetter⟩ := e.exists_text_append (behind ++ woven Element.text es)
    rw [woven, hText] at hWoven
    cases z with
    | cons c z =>
      obtain rfl := (List.cons.inj hWoven).1
      have hMem : '<' ∈ (gap ++ woven Element.text ((e, behind) :: es)).takeWhile Text.isBlank := by
        simp [hBlanks]
      have hBlank := List.all_eq_true.mp List.all_takeWhile _ hMem
      revert hBlank
      decide
    | nil =>
      exact absurd (List.cons.inj (List.cons.inj hWoven).2).1 hLetter

/-- Of a text in which tags stand between gaps without an angle bracket, the scan finds each tag at
its place, and nothing else. -/
theorem scanEmbeds_woven {gap : Text} {es : List (Element × Text)} (hGap : '<' ∉ gap)
    (hEach : ∀ p ∈ es, '<' ∉ p.2) :
    scanEmbeds (gap ++ woven Element.text es) =
      placed Element.text Element.directive (byteLength gap) es := by
  rw [scanEmbeds, (passesOver_of_notMem hGap _).scanFrom_eq, Nat.zero_add]
  refine scanFrom_woven (fun gap es hGap => passesOver_of_notMem hGap _) ?_ hEach _
  intro e gap es hGap
  refine ⟨e.tag.kind, e.cut, e.text_cut, ?_, e.readEmbed_eq (closing?_woven hGap es), e.ofCut_cut⟩
  rw [e.text_cut]
  exact List.cons_ne_nil _ _

/-- A script with a body that holds an image, a link that is not closed, one that is, and an image.
The letters of some names are written as other characters that fold to them. -/
theorem scanEmbeds_woven_page :
    ∃ script opened closed image : Element,
      script.text = "<SCRIPT defer\nſrc=\"ä>.js\" async>f('<img src=\"x\"/>')</script >".toList ∧
      opened.text = "<lin\u212A href=\"a.css\"/>".toList ∧
      closed.text = "<link href=\"\"> </LINK>".toList ∧
      image.text = "<img alt src=\"b.png\" />".toList ∧
      scanEmbeds ("é".toList ++ woven Element.text
          [(script, [' ']), (opened, ['\n']), (closed, []), (image, "/>".toList)]) =
        [{ kind := .script, address := "ä>.js".toList, addressSpan := ⟨22, 28⟩
           span := ⟨2, 65⟩, quote := '"' },
         { kind := .link, address := "a.css".toList, addressSpan := ⟨80, 85⟩
           span := ⟨66, 88⟩, quote := '"' },
         { kind := .link, address := [], addressSpan := ⟨101, 101⟩
           span := ⟨89, 111⟩, quote := '"' },
         { kind := .image, address := "b.png".toList, addressSpan := ⟨125, 130⟩
           span := ⟨111, 134⟩, quote := '"' }] := by
  let script : Element :=
    { tag := .script, name := "SCRIPT".toList, between := " defer".toList, blank := '\n'
      attributeName := "ſrc".toList, address := "ä>.js".toList, rest := " async".toList
      ending := .body "f('<img src=\"x\"/>')".toList
        ⟨"script".toList, [' '], by decide +kernel, List.forall_mem_singleton.mpr (by decide)⟩
        fun x name y hSplit _ =>
          (by decide +kernel : ¬ ['<', '/'] <:+: "f('<img src=\"x\"/>')".toList)
            ⟨x, name ++ y, by simp [hSplit]⟩
      name_same := by decide +kernel, attributeName_same := by decide +kernel
      between_head := by rintro c ⟨⟩; decide
      bracket_notMem_between := by decide +kernel
      between_free := AttributeForm.not_begins_of_notMem (by decide +kernel)
      blank_blank := by decide +kernel, quote_notMem := by decide +kernel
      bracket_notMem_rest := by decide +kernel }
  let opened : Element :=
    { tag := .link, name := "lin\u212A".toList, between := [], blank := ' '
      attributeName := "href".toList, address := "a.css".toList, rest := ['/'], ending := .opened
      name_same := by decide +kernel, attributeName_same := by decide +kernel
      between_head := by simp
      bracket_notMem_between := by decide +kernel
      between_free := AttributeForm.not_begins_of_notMem (by decide +kernel)
      blank_blank := by decide +kernel, quote_notMem := by decide +kernel
      bracket_notMem_rest := by decide +kernel }
  let closed : Element :=
    { tag := .link, name := "link".toList, between := [], blank := ' '
      attributeName := "href".toList, address := [], rest := []
      ending := .closed [' '] ⟨"LINK".toList, [], by decide +kernel, by simp⟩
        (List.forall_mem_singleton.mpr (by decide))
      name_same := by decide +kernel, attributeName_same := by decide +kernel
      between_head := by simp
      bracket_notMem_between := by decide +kernel
      between_free := AttributeForm.not_begins_of_notMem (by decide +kernel)
      blank_blank := by decide +kernel, quote_notMem := by decide +kernel
      bracket_notMem_rest := by decide +kernel }
  let image : Element :=
    { tag := .image, name := "img".toList, between := " alt".toList, blank := ' '
      attributeName := "src".toList, address := "b.png".toList, rest := [' ']
      ending := .selfClosed
      name_same := by decide +kernel, attributeName_same := by decide +kernel
      between_head := by rintro c ⟨⟩; decide
      bracket_notMem_between := by decide +kernel
      between_free := AttributeForm.not_begins_of_notMem (by decide +kernel)
      blank_blank := by decide +kernel, quote_notMem := by decide +kernel
      bracket_notMem_rest := by decide +kernel }
  have hGaps : ∀ p ∈ [(script, [' ']), (opened, ['\n']), (closed, []), (image, "/>".toList)],
      '<' ∉ p.2 := by decide +kernel
  refine ⟨script, opened, closed, image, by decide +kernel, by decide +kernel, by decide +kernel,
    by decide +kernel, ?_⟩
  rw [scanEmbeds_woven (by decide) hGaps]
  decide +kernel

end AssetLoom.Directive
