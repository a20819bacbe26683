import AssetLoom.Directive.Scan
import AssetLoom.Proofs.Attribute
import AssetLoom.Proofs.Splice

/-!
# Where the directives of a text stand

What a reader takes is the front of the text it reads, and the address in it stands between the
quotes of an attribute of a known name (`Sound`). So each directive that is found is a part of the
text (`Directive.Stands`), and those that one reader finds follow one another
(`pairwise_scanFrom`).
-/

namespace AssetLoom.Directive

open Text (byteLength)

/-! ## Attributes -/

namespace Cut

/-- The address stands between quotes behind the name of the attribute and an equals sign. -/
structure Attributed (form : AttributeForm) (cut : Cut) : Prop where
  lead : ∃ front written, cut.lead = front ++ written ++ ['=', cut.quote] ∧
    List.Forall₂ (fun n c => form.same n c = true) form.name written
  tail : ∃ behind, cut.tail = cut.quote :: behind
  quote_mem : cut.quote ∈ form.quotes
  quote_notMem : cut.quote ∉ cut.address

theorem Attributed.prepend {form : AttributeForm} {cut : Cut} (h : cut.Attributed form)
    (front : Text) : (cut.prepend front).Attributed form := by
  obtain ⟨before, written, hLead, hWritten⟩ := h.lead
  refine ⟨⟨front ++ before, written, ?_, hWritten⟩, h.tail, h.quote_mem, h.quote_notMem⟩
  simp [Cut.prepend, hLead]

/-- The address does not start where the directive starts. -/
theorem Attributed.lead_pos {form : AttributeForm} {cut : Cut} (h : cut.Attributed form) :
    0 < byteLength cut.lead := by
  obtain ⟨front, written, hLead, -⟩ := h.lead
  have := cut.quote.utf8Size_pos
  simp only [hLead, Text.byteLength_append, Text.byteLength_cons]
  omega

/-- The address does not reach the end of the directive. -/
theorem Attributed.lead_address_lt {form : AttributeForm} {cut : Cut} (h : cut.Attributed form) :
    byteLength cut.lead + byteLength cut.address < byteLength cut.text := by
  obtain ⟨behind, hTail⟩ := h.tail
  have := cut.quote.utf8Size_pos
  simp only [Cut.text, hTail, Text.byteLength_append, Text.byteLength_cons]
  omega

theorem Attributed.text_ne_nil {form : AttributeForm} {cut : Cut} (h : cut.Attributed form) :
    cut.text ≠ [] := by
  have := h.lead_address_lt
  intro hEmpty
  rw [hEmpty] at this
  exact absurd this (Nat.not_lt_zero _)

end Cut

/-- What a function takes from texts is their front. -/
def TakesFront (finish : Text → Option Text) : Prop :=
  ∀ t taken, finish t = some taken → taken <+: t

theorem cutAttribute?_eq_some {form : AttributeForm} {finish : Text → Option Text} {t : Text}
    {cut : Cut} (hFinish : TakesFront finish) (h : cutAttribute? form finish t = some cut) :
    cut.text <+: t ∧ cut.Attributed form := by
  obtain ⟨blank, written, quote, address, left, behind, -, hWritten, hQuote, hAddress, rfl,
    hBehind, rfl⟩ := cutAttribute?_eq_some_iff.mp h
  obtain ⟨rest, rfl⟩ := hFinish left behind hBehind
  refine ⟨⟨rest, by simp [Cut.text]⟩, ⟨[blank], written, ?_, hWritten⟩, ⟨behind, rfl⟩, hQuote,
    hAddress⟩
  simp

theorem findAttribute?_eq_some {form : AttributeForm} {finish : Text → Option Text} {t : Text}
    {cut : Cut} (hFinish : TakesFront finish) (h : findAttribute? form finish t = some cut) :
    cut.text <+: t ∧ cut.Attributed form := by
  obtain ⟨front, rest, inner, rfl, -, -, hInner, rfl⟩ := findAttribute?_eq_some_iff.mp h
  obtain ⟨⟨behind, hText⟩, hAttributed⟩ := cutAttribute?_eq_some hFinish hInner
  refine ⟨⟨behind, ?_⟩, hAttributed.prepend front⟩
  rw [Cut.text_prepend, List.append_assoc, hText]

/-! ## Tags and expressions -/

/-- Behind the address an expression goes on to the first brace, and that is a pair of braces. -/
theorem throughBraces?_eq_some_iff {t taken : Text} : throughBraces? t = some taken ↔
    ∃ front rest, '}' ∉ front ∧ t = front ++ '}' :: '}' :: rest ∧ taken = front ++ ['}', '}'] := by
  constructor
  · intro h
    rw [throughBraces?] at h
    split at h
    · next rest hDrop =>
      obtain ⟨front, hFront, rfl⟩ := Text.eq_of_dropWhile_ne hDrop
      cases h
      exact ⟨front, rest, hFront, rfl, by rw [Text.takeWhile_ne_append hFront]⟩
    · cases h
  · rintro ⟨front, rest, hFront, rfl, rfl⟩
    rw [throughBraces?, Text.dropWhile_ne_append hFront]
    simp only [Text.takeWhile_ne_append hFront]

theorem takesFront_throughBraces? : TakesFront throughBraces? := by
  intro t taken h
  obtain ⟨front, rest, -, rfl, rfl⟩ := throughBraces?_eq_some_iff.mp h
  exact ⟨rest, by simp⟩

namespace Tag

/-- A closing tag is the name behind a bracket and a slash, in any case, with blanks before the
bracket at its end. -/
theorem closing?_eq_some_iff {name t taken : Text} : closing? name t = some taken ↔
    ∃ written blanks rest, List.Forall₂ (fun n c => inAnyCase n c = true) name written ∧
      (∀ c ∈ blanks, Text.isBlank c = true) ∧
      t = '<' :: '/' :: (written ++ (blanks ++ '>' :: rest)) ∧
      taken = '<' :: '/' :: (written ++ blanks ++ ['>']) := by
  constructor
  · intro h
    unfold closing? at h
    split at h
    · next rest =>
      obtain ⟨left, hStrip, hLeft⟩ := Option.bind_eq_some_iff.mp h
      obtain ⟨written, rfl, hWritten⟩ := stripName?_eq_some hStrip
      rw [take_of_forall₂ _ hWritten] at hLeft
      split at hLeft
      · next behind hDrop =>
        cases hLeft
        refine ⟨written, left.takeWhile Text.isBlank, behind, hWritten, ?_, ?_, rfl⟩
        · exact fun c hc => List.all_eq_true.mp List.all_takeWhile c hc
        · rw [← hDrop, List.takeWhile_append_dropWhile]
      · cases hLeft
    · cases h
  · rintro ⟨written, blanks, rest, hWritten, hBlanks, rfl, rfl⟩
    have hBracket : ¬ Text.isBlank '>' = true := by decide
    rw [closing?, stripName?_append hWritten, Option.bind_some,
      List.dropWhile_append_of_pos hBlanks, List.dropWhile_cons_of_neg hBracket,
      List.takeWhile_append_of_pos hBlanks, List.takeWhile_cons_of_neg hBracket,
      take_of_forall₂ _ hWritten, List.append_nil]
    rfl

theorem takesFront_closing? (name : Text) : TakesFront (closing? name) := by
  intro t taken h
  obtain ⟨written, blanks, rest, -, -, rfl, rfl⟩ := closing?_eq_some_iff.mp h
  exact ⟨rest, by simp⟩

theorem takesFront_throughClosing? (name : Text) : TakesFront (throughClosing? name) := by
  intro t
  induction t with
  | nil =>
    intro taken h
    simp [throughClosing?] at h
  | cons c rest ih =>
    intro taken h
    rw [throughClosing?] at h
    split at h
    · next tag hTag =>
      cases h
      exact takesFront_closing? name _ _ hTag
    · obtain ⟨inner, hInner, rfl⟩ := Option.map_eq_some_iff.mp h
      exact List.cons_prefix_cons.mpr ⟨rfl, ih inner hInner⟩

/-- The opening tag goes on to the first bracket. -/
theorem throughOpening?_eq_some_iff {t opening left : Text} :
    throughOpening? t = some (opening, left) ↔
      ∃ front, '>' ∉ front ∧ t = front ++ '>' :: left ∧ opening = front ++ ['>'] := by
  constructor
  · intro h
    rw [throughOpening?] at h
    split at h
    · next close rest hDrop =>
      obtain ⟨front, hFront, rfl⟩ := Text.eq_of_dropWhile_ne hDrop
      cases h
      exact ⟨front, hFront, rfl, by rw [Text.takeWhile_ne_append hFront]⟩
    · cases h
  · rintro ⟨front, hFront, rfl, rfl⟩
    rw [throughOpening?, Text.dropWhile_ne_append hFront, Text.takeWhile_ne_append hFront]

theorem takesFront_finish? (tag : Tag) : TakesFront tag.finish? := by
  intro t taken h
  rw [finish?] at h
  split at h
  · cases h
  · next opening left hOpening =>
    obtain rfl : t = opening ++ left := by
      obtain ⟨front, -, rfl, rfl⟩ := throughOpening?_eq_some_iff.mp hOpening
      simp
    cases tag with
    | script =>
      obtain ⟨inner, hInner, rfl⟩ := Option.map_eq_some_iff.mp h
      exact (List.prefix_append_right_inj opening).mpr (takesFront_throughClosing? _ _ _ hInner)
    | link =>
      simp only at h
      split at h
      · next close hClose =>
        cases h
        obtain ⟨behind, hBehind⟩ := takesFront_closing? _ _ _ hClose
        refine ⟨behind, ?_⟩
        rw [List.append_assoc, List.append_assoc, hBehind, List.takeWhile_append_dropWhile]
      · cases h
        exact List.prefix_append _ _
    | image =>
      simp only at h
      split at h
      · cases h
        exact List.prefix_append _ _
      · cases h

/-- A tag that is read is the front of the text; it starts with an angle bracket. -/
theorem cut?_eq_some {tag : Tag} {t : Text} {cut : Cut} (h : tag.cut? t = some cut) :
    cut.text <+: t ∧ cut.Attributed tag.form ∧ cut.text.head? = some '<' := by
  unfold cut? at h
  split at h
  · next rest =>
    split at h
    · next left hStrip =>
      split at h
      · obtain ⟨inner, hInner, rfl⟩ := Option.map_eq_some_iff.mp h
        obtain ⟨⟨behind, hText⟩, hAttributed⟩ :=
          findAttribute?_eq_some (takesFront_finish? tag) hInner
        obtain ⟨written, rfl, hWritten⟩ := stripName?_eq_some hStrip
        rw [take_of_forall₂ _ hWritten]
        refine ⟨⟨behind, ?_⟩, hAttributed.prepend _, by simp⟩
        rw [Cut.text_prepend, ← hText]
        simp
      · cases h
    · cases h
  · cases h

end Tag

/-- An expression that is read starts with braces, blanks and the keyword; the attribute is looked
for behind the keyword. -/
theorem exists_of_cutExpression? {keyword : Text} {form : AttributeForm} {t : Text} {cut : Cut}
    (h : cutExpression? keyword form t = some cut) :
    ∃ blanks left inner, (∀ c ∈ blanks, Text.isBlank c = true) ∧
      t = '{' :: '{' :: (blanks ++ keyword ++ left) ∧ endsWord left = true ∧
      findAttribute? form throughBraces? left = some inner ∧
      cut = inner.prepend ('{' :: '{' :: (blanks ++ keyword)) := by
  unfold cutExpression? at h
  split at h
  · next rest =>
    split at h
    · next left hStrip =>
      split at h
      · next hWord =>
        obtain ⟨inner, hInner, rfl⟩ := Option.map_eq_some_iff.mp h
        have hWritten := stripName?_exactly_eq_some_iff.mp hStrip
        refine ⟨rest.takeWhile Text.isBlank, left, inner, ?_, ?_, hWord, hInner, rfl⟩
        · exact fun c hc => List.all_eq_true.mp List.all_takeWhile c hc
        · rw [List.append_assoc, ← hWritten, List.takeWhile_append_dropWhile]
      · cases h
    · cases h
  · cases h

/-- An expression that is read is the front of the text. -/
theorem cutExpression?_eq_some {keyword : Text} {form : AttributeForm} {t : Text} {cut : Cut}
    (h : cutExpression? keyword form t = some cut) :
    cut.text <+: t ∧ cut.Attributed form := by
  obtain ⟨blanks, left, inner, -, rfl, -, hInner, rfl⟩ := exists_of_cutExpression? h
  obtain ⟨⟨behind, hText⟩, hAttributed⟩ :=
    findAttribute?_eq_some takesFront_throughBraces? hInner
  refine ⟨⟨behind, ?_⟩, hAttributed.prepend _⟩
  rw [Cut.text_prepend, List.append_assoc, hText]
  rfl

/-! ## Readers -/

/-- The attribute that holds the address of a directive. -/
def attributeForm : DirectiveKind → AttributeForm
  | .script => Tag.script.form
  | .link => Tag.link.form
  | .image => Tag.image.form
  | .includeFile | .extendFile => expressionAttribute "file".toList ['"']
  | .requireScript | .requireStyle | .widget => expressionAttribute "name".toList ['"', '\'']

/-- What the reader takes is the front of the text, with the address in the attribute of its kind;
a tag starts with an angle bracket. -/
def Sound (read : Reader) : Prop :=
  ∀ t kind cut, read t = some (kind, cut) → cut.text <+: t ∧ cut.Attributed (attributeForm kind) ∧
    (kind.isEmbed = true → cut.text.head? = some '<')

theorem sound_readEmbed : Sound readEmbed := by
  intro t kind cut h
  simp only [readEmbed, Option.or_eq_some_iff, Option.map_eq_some_iff, Prod.mk.injEq] at h
  rcases h with ⟨_, hCut, rfl, rfl⟩ | ⟨-, ⟨_, hCut, rfl, rfl⟩ | ⟨-, _, hCut, rfl, rfl⟩⟩
  all_goals
    obtain ⟨hFront, hAttributed, hHead⟩ := Tag.cut?_eq_some hCut
    exact ⟨hFront, hAttributed, fun _ => hHead⟩

theorem sound_readExpression {keywords : List (String × DirectiveKind)} {form : AttributeForm}
    (hForm : ∀ p ∈ keywords, attributeForm p.2 = form ∧ p.2.isEmbed = false) :
    Sound (readExpression keywords form) := by
  intro t kind cut h
  obtain ⟨⟨keyword, kind'⟩, hMem, hCut⟩ := List.exists_of_findSome?_eq_some h
  simp only [Option.map_eq_some_iff, Prod.mk.injEq] at hCut
  obtain ⟨_, hCut, rfl, rfl⟩ := hCut
  obtain ⟨hFront, hAttributed⟩ := cutExpression?_eq_some hCut
  obtain ⟨hKind, hEmbed⟩ := hForm _ hMem
  exact ⟨hFront, hKind ▸ hAttributed, fun h => absurd h (by simp [hEmbed])⟩

theorem sound_readRequire : Sound readRequire :=
  sound_readExpression (by simp [attributeForm, DirectiveKind.isEmbed])

theorem sound_readInclude : Sound readInclude :=
  sound_readExpression (by simp [attributeForm, DirectiveKind.isEmbed])

theorem sound_readWidget : Sound readWidget :=
  sound_readExpression (by simp [attributeForm, DirectiveKind.isEmbed])

/-! ## Scans -/

/-- The directive is a part of the text, cut at its address. -/
def Stands (t : Text) (directive : Directive) : Prop :=
  ∃ a cut c, t = a ++ cut.text ++ c ∧ directive = ofCut (byteLength a) directive.kind cut ∧
    cut.Attributed (attributeForm directive.kind) ∧
    (directive.kind.isEmbed = true → cut.text.head? = some '<')

/-- Each directive that is found is read at some place of the text. -/
theorem exists_read_of_mem_scanFrom {read : Reader} {offset skip : Nat} {t : Text}
    {directive : Directive} (h : directive ∈ scanFrom read offset skip t) :
    ∃ x y kind cut, t = x ++ y ∧ skip ≤ x.length ∧ read y = some (kind, cut) ∧
      directive = ofCut (offset + byteLength x) kind cut := by
  induction t generalizing offset skip with
  | nil => simp [scanFrom] at h
  | cons c rest ih =>
    have hLater : ∀ skip, directive ∈ scanFrom read (offset + c.utf8Size) skip rest →
        ∃ x y kind cut, c :: rest = x ++ y ∧ skip + 1 ≤ x.length ∧ read y = some (kind, cut) ∧
          directive = ofCut (offset + byteLength x) kind cut := by
      intro skip hMem
      obtain ⟨x, y, kind, cut, rfl, hSkip, hRead, rfl⟩ := ih hMem
      exact ⟨c :: x, y, kind, cut, rfl, Nat.succ_le_succ hSkip, hRead,
        by rw [Text.byteLength_cons, Nat.add_assoc]⟩
    cases skip with
    | succ skip => exact hLater skip h
    | zero =>
      rw [scanFrom] at h
      split at h
      · next kind cut hRead =>
        rcases List.mem_cons.mp h with rfl | hMem
        · exact ⟨[], c :: rest, kind, cut, rfl, Nat.le_refl 0, hRead, rfl⟩
        · obtain ⟨x, y, kind, cut, hText, -, hFound⟩ := hLater _ hMem
          exact ⟨x, y, kind, cut, hText, Nat.zero_le _, hFound⟩
      · obtain ⟨x, y, kind, cut, hText, -, hFound⟩ := hLater _ h
        exact ⟨x, y, kind, cut, hText, Nat.zero_le _, hFound⟩

theorem stands_of_mem_scanFrom {read : Reader} (hRead : Sound read) (front : Text)
    {rest : Text} {skip : Nat} {directive : Directive}
    (h : directive ∈ scanFrom read (byteLength front) skip rest) :
    Stands (front ++ rest) directive ∧
      byteLength front + byteLength (rest.take skip) ≤ directive.span.start := by
  obtain ⟨x, y, kind, cut, rfl, hSkip, hCut, rfl⟩ := exists_read_of_mem_scanFrom h
  obtain ⟨⟨behind, rfl⟩, hAttributed, hHead⟩ := hRead _ _ _ hCut
  constructor
  · exact ⟨front ++ x, cut, behind, by simp, by simp [ofCut], hAttributed, hHead⟩
  · have hTake := congrArg byteLength (List.take_append_drop skip x)
    rw [Text.byteLength_append] at hTake
    rw [List.take_append_of_le_length hSkip]
    simp only [ofCut]
    omega

/-- The directives that one reader finds follow one another. -/
theorem pairwise_scanFrom {read : Reader} (hRead : Sound read) (front rest : Text) (skip : Nat) :
    (scanFrom read (byteLength front) skip rest).Pairwise fun a b => a.span.Precedes b.span := by
  induction rest generalizing front skip with
  | nil => exact .nil
  | cons c rest ih =>
    have hFront : byteLength (front ++ [c]) = byteLength front + c.utf8Size := by simp
    cases skip with
    | succ skip =>
      rw [scanFrom, ← hFront]
      exact ih _ _
    | zero =>
      rw [scanFrom, ← hFront]
      split
      · next kind cut hCut =>
        refine List.pairwise_cons.mpr ⟨?_, ih _ _⟩
        intro later hLater
        obtain ⟨-, hStart⟩ := stands_of_mem_scanFrom hRead _ hLater
        obtain ⟨hPrefix, hAttributed, -⟩ := hRead _ _ _ hCut
        have hLength : 0 < cut.text.length := by
          have := hAttributed.lead_address_lt
          apply List.length_pos_iff.mpr
          intro hNil
          simp [hNil] at this
        have hTake : (c :: rest).take cut.text.length = cut.text :=
          (List.prefix_iff_eq_take.mp hPrefix).symm
        obtain ⟨n, hn⟩ : ∃ n, cut.text.length = n + 1 := ⟨cut.text.length - 1, by omega⟩
        rw [hn, List.take_succ_cons] at hTake
        have hBytes := congrArg byteLength hTake
        rw [hFront, hn, Nat.add_sub_cancel] at hStart
        simp only [Span.Precedes, ofCut]
        simp only [Text.byteLength_cons] at hBytes
        omega
      · exact ih _ _

namespace Stands

variable {t : Text} {a b : Directive}

theorem span_within (h : Stands t a) : a.span.Within t := by
  obtain ⟨front, cut, behind, hText, hEq, -⟩ := h
  rw [hEq]
  exact ⟨front, cut.text, behind, hText, rfl⟩

theorem addressSpan_within (h : Stands t a) : a.addressSpan.Within t := by
  obtain ⟨front, cut, behind, hText, hEq, -⟩ := h
  rw [hEq]
  refine ⟨front ++ cut.lead, cut.address, cut.tail ++ behind, ?_, ?_⟩
  · simp [hText, Cut.text]
  · simp [ofCut]

/-- The address lies within the directive, behind its start and before its end. -/
theorem addressSpan_inside (h : Stands t a) :
    a.span.start < a.addressSpan.start ∧ a.addressSpan.stop < a.span.stop := by
  obtain ⟨front, cut, behind, -, hEq, hAttributed, -⟩ := h
  have := hAttributed.lead_pos
  have := hAttributed.lead_address_lt
  rw [hEq]
  simp only [ofCut]
  omega

end Stands

/-- The text in front of the address ends with the name of the attribute, the equals sign and the
quote. -/
theorem Stands.name_before {t : Text} {a : Directive} (h : Stands t a) :
    ∃ x written behind, t = x ++ written ++ ['=', a.quote] ++ behind ∧
      a.addressSpan.start = byteLength (x ++ written ++ ['=', a.quote]) ∧
      List.Forall₂ (fun n c => (attributeForm a.kind).same n c = true)
        (attributeForm a.kind).name written := by
  obtain ⟨front, cut, behind, hText, hEq, hAttributed, -⟩ := h
  obtain ⟨before, written, hLead, hWritten⟩ := hAttributed.lead
  have hQuote : a.quote = cut.quote := by rw [hEq]; rfl
  refine ⟨front ++ before, written, cut.address ++ cut.tail ++ behind, ?_, ?_, hWritten⟩
  · simp [hText, Cut.text, hLead, hQuote]
  · rw [hEq]
    simp [ofCut, hLead, Nat.add_assoc]

/-- If two addresses start at the same byte, the names of their attributes end the same text. -/
theorem Stands.names_meet {t : Text} {a b : Directive} (ha : Stands t a) (hb : Stands t b)
    (hStart : a.addressSpan.start = b.addressSpan.start) :
    ∃ x written x' written', x ++ written = x' ++ written' ∧
      List.Forall₂ (fun n c => (attributeForm a.kind).same n c = true)
        (attributeForm a.kind).name written ∧
      List.Forall₂ (fun n c => (attributeForm b.kind).same n c = true)
        (attributeForm b.kind).name written' := by
  obtain ⟨x, written, behind, hText, hByte, hWritten⟩ := ha.name_before
  obtain ⟨x', written', behind', hText', hByte', hWritten'⟩ := hb.name_before
  have hCut := Text.append_inj_of_byteLength (hText ▸ hText') (by omega)
  exact ⟨x, written, x', written', List.append_inj_left' hCut.1 rfl, hWritten, hWritten'⟩

/-- The last character of the name of an attribute of a tag, in any case. -/
theorem getLast?_of_embed {kind : DirectiveKind} (hEmbed : kind.isEmbed = true) {written : Text}
    (h : List.Forall₂ (fun n c => (attributeForm kind).same n c = true)
      (attributeForm kind).name written) :
    ∃ c, written.getLast? = some c ∧ (Text.fold c = 'c' ∨ Text.fold c = 'f') := by
  cases kind with
  | script | image =>
    change List.Forall₂ (fun n c => inAnyCase n c = true) ['s', 'r', 'c'] written at h
    simp only [inAnyCase, beq_iff_eq, List.forall₂_cons_left_iff, List.forall₂_nil_left_iff] at h
    obtain ⟨_, _, -, ⟨_, _, -, ⟨c, _, hLast, rfl, rfl⟩, rfl⟩, rfl⟩ := h
    exact ⟨c, rfl, .inl hLast⟩
  | link =>
    change List.Forall₂ (fun n c => inAnyCase n c = true) ['h', 'r', 'e', 'f'] written at h
    simp only [inAnyCase, beq_iff_eq, List.forall₂_cons_left_iff, List.forall₂_nil_left_iff] at h
    obtain ⟨_, _, -, ⟨_, _, -, ⟨_, _, -, ⟨c, _, hLast, rfl, rfl⟩, rfl⟩, rfl⟩, rfl⟩ := h
    exact ⟨c, rfl, .inr hLast⟩
  | _ => cases hEmbed

/-- The directives that one reader finds have addresses that start at different bytes. -/
theorem pairwise_scanFrom_start {read : Reader} (hRead : Sound read) (t : Text) :
    (scanFrom read 0 0 t).Pairwise fun a b => a.addressSpan.start ≠ b.addressSpan.start := by
  refine List.Pairwise.imp_of_mem ?_ (pairwise_scanFrom hRead [] t 0)
  intro a b ha hb hab
  have hA := (stands_of_mem_scanFrom hRead [] ha).1
  have hB := (stands_of_mem_scanFrom hRead [] hb).1
  have hInA := hA.addressSpan_inside
  have hInB := hB.addressSpan_inside
  have hLe := hA.addressSpan_within.start_le_stop
  unfold Span.Precedes at hab
  omega

/-- The kinds of directives that a reader finds. -/
theorem kind_of_mem_scanFrom {read : Reader} {P : DirectiveKind → Prop}
    (hRead : ∀ t kind cut, read t = some (kind, cut) → P kind) {offset skip : Nat} {t : Text}
    {directive : Directive} (h : directive ∈ scanFrom read offset skip t) :
    P directive.kind := by
  obtain ⟨x, y, kind, cut, -, -, hCut, rfl⟩ := exists_read_of_mem_scanFrom h
  exact hRead _ _ _ hCut

theorem kind_of_readEmbed {t : Text} {kind : DirectiveKind} {cut : Cut}
    (h : readEmbed t = some (kind, cut)) : kind.isEmbed = true := by
  simp only [readEmbed, Option.or_eq_some_iff, Option.map_eq_some_iff, Prod.mk.injEq] at h
  rcases h with ⟨_, -, rfl, -⟩ | ⟨-, ⟨_, -, rfl, -⟩ | ⟨-, _, -, rfl, -⟩⟩ <;> rfl

theorem kind_of_readExpression {keywords : List (String × DirectiveKind)} {form : AttributeForm}
    {t : Text} {kind : DirectiveKind} {cut : Cut}
    (h : readExpression keywords form t = some (kind, cut)) : kind ∈ keywords.map Prod.snd := by
  obtain ⟨⟨keyword, kind'⟩, hMem, hCut⟩ := List.exists_of_findSome?_eq_some h
  simp only [Option.map_eq_some_iff, Prod.mk.injEq] at hCut
  obtain ⟨_, -, rfl, -⟩ := hCut
  exact List.mem_map.mpr ⟨_, hMem, rfl⟩

end AssetLoom.Directive
