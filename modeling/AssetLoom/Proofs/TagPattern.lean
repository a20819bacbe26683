import AssetLoom.Proofs.Matches

/-!
# The pattern of tags

Tags are the matches of a pattern with three alternatives, each of which matches what the reader
of its tag takes (`matches_tag`). So a scan for tags finds the directives that the matches stand
for (`scanEmbeds_eq_matches`).
-/

namespace AssetLoom.Directive

open Pattern
open Text (byteLength)

variable {name : Text} {sequel : Sequel} {c : Char}

/-! ## Behind the address -/

/-- A closing tag. -/
def closingExprs (name : Text) : List Expr :=
  spelling true ('<' :: '/' :: name) ++ [.star .blank true, sign true '>']

theorem stripName?_closing (name rest : Text) :
    stripName? (sameLetter true) ('<' :: '/' :: name) ('<' :: '/' :: rest) =
      stripName? inAnyCase name rest := by
  have hLess : IsSign true '<' := fun _ => by decide
  have hSlash : IsSign true '/' := fun _ => by decide
  rw [stripName?, sameLetter_sign hLess, if_pos (by simp), stripName?, sameLetter_sign hSlash,
    if_pos (by simp)]
  rfl

theorem stripName?_closing_of_ne {t : Text} (hOther : ∀ rest, t = '<' :: '/' :: rest → False)
    (name : Text) : stripName? (sameLetter true) ('<' :: '/' :: name) t = none := by
  have hLess : IsSign true '<' := fun _ => by decide
  have hSlash : IsSign true '/' := fun _ => by decide
  rw [Option.eq_none_iff_forall_ne_some]
  intro left hLeft
  obtain ⟨written, rfl, hWritten⟩ := stripName?_eq_some hLeft
  obtain ⟨c, _, hFirst, hLater, rfl⟩ := List.forall₂_cons_left_iff.mp hWritten
  obtain ⟨d, more, hSecond, -, rfl⟩ := List.forall₂_cons_left_iff.mp hLater
  rw [sameLetter_sign hLess, decide_eq_true_eq] at hFirst
  rw [sameLetter_sign hSlash, decide_eq_true_eq] at hSecond
  exact hOther (more ++ left) (by rw [hFirst, hSecond]; rfl)

theorem matches_closing (hName : ∀ n ∈ name, Text.Unfolded n) :
    ending.Matches ((closingExprs name).foldr Expr.matchThen accepted) (Tag.closing? name) := by
  have hMore : IsSign true '>' := fun _ => by decide
  have hAll : ∀ n ∈ '<' :: '/' :: name, Text.Unfolded n := by
    simpa using ⟨by decide, by decide, hName⟩
  have hBracket := matches_accepted.oneOf (letterSet true '>')
  rw [contains_sign hMore] at hBracket
  rw [closingExprs, List.foldr_append]
  refine ((hBracket.greedy .blank fun c rest hBlank => ?_).spelled hAll).congr fun t => ?_
  · rw [Noting.readOne, if_neg]
    rw [decide_eq_true_eq]
    rintro rfl
    exact absurd hBlank (by decide)
  · unfold Tag.closing?
    split
    · next rest =>
      rw [stripName?_closing]
      refine Option.bind_congr fun left _ => ?_
      rw [contains_blank]
      rcases left.dropWhile Text.isBlank with _ | ⟨e, behind⟩
      · rfl
      · by_cases hEnd : e = '>' <;> simp [Noting.readOne, ending, hEnd]
    · next hOther =>
      rw [stripName?_closing_of_ne hOther]
      rfl

/-- The body of a script goes on to the first closing tag. -/
theorem matches_throughClosing (hName : ∀ n ∈ name, Text.Unfolded n) :
    ending.Matches
      ((Expr.star (.compl .empty) false :: closingExprs name).foldr Expr.matchThen accepted)
      (Tag.throughClosing? name) := by
  refine (matches_closing hName).reluctant rfl fun c rest => ?_
  rw [Tag.throughClosing?]
  cases Tag.closing? name (c :: rest) <;> rfl

/-- The rest of an opening tag, up to the first bracket. -/
def openingExprs : List Expr :=
  [.star (others true '>') true, sign true '>']

theorem matches_opening {read : Text → Option Text} (h : ending.Matches sequel read) :
    ending.Matches (openingExprs.foldr Expr.matchThen sequel) fun t =>
      (Tag.throughOpening? t).bind fun (opening, left) => (read left).map (opening ++ ·) := by
  have hSign : IsSign true '>' := fun _ => by decide
  refine ((h.oneOf (letterSet true '>')).greedy (others true '>')
    fun c rest hOther => ?_).congr fun t => ?_
  · rw [contains_others hSign] at hOther
    rw [Noting.readOne, contains_sign hSign, if_neg (by simpa using hOther)]
  · rw [Tag.throughOpening?, contains_others hSign, contains_sign hSign]
    cases hDrop : t.dropWhile (· ≠ '>') with
    | nil => rfl
    | cons c rest =>
      have hMark := Text.eq_of_dropWhile_ne_eq_cons hDrop
      simp [Noting.readOne, ending, hMark, Function.comp_def]

/-- What a tag has behind the value of its attribute. -/
def finishExprs : Tag → List Expr
  | .script => openingExprs ++ .star (.compl .empty) false :: closingExprs Tag.script.name
  | .link => openingExprs ++
      [.repetition (.seqOf (.star .blank true :: closingExprs Tag.link.name)) 0 (some 1) true]
  | .image => [.star (others true '>') false, sign true '/', sign true '>']

theorem name_lower (tag : Tag) :
    ∀ n ∈ tag.name ++ tag.form.name, 0x61 ≤ n.toNat ∧ n.toNat ≤ 0x7A := by
  cases tag <;> decide

theorem unfolded_name (tag : Tag) : ∀ n ∈ tag.name ++ tag.form.name, Text.Unfolded n := by
  intro n hn
  obtain ⟨hLow, hHigh⟩ := name_lower tag n hn
  exact ⟨by omega, .inr ⟨by omega, by omega⟩⟩

theorem closing?_of_isBlank (hBlank : Text.isBlank c = true) (name rest : Text) :
    Tag.closing? name (c :: rest) = none := by
  unfold Tag.closing?
  split
  · next hText =>
    obtain rfl := (List.cons.inj hText).1
    exact absurd hBlank (by decide)
  · rfl

theorem throughOpening?_cons (c : Char) (rest : Text) :
    Tag.throughOpening? (c :: rest) = if c = '>' then some (['>'], rest)
      else (Tag.throughOpening? rest).map fun p => (c :: p.1, p.2) := by
  unfold Tag.throughOpening?
  by_cases hc : c = '>'
  · simp [hc]
  · rw [if_neg hc, List.dropWhile_cons_of_pos (by simp [hc]),
      List.takeWhile_cons_of_pos (by simp [hc])]
    split <;> rfl

/-- An image ends at the first bracket, if a slash stands before it. -/
theorem image_finish?_cons (c : Char) (rest : Text) :
    Tag.image.finish? (c :: rest) =
      if c = '/' ∧ rest.head? = some '>' then some ['/', '>']
      else if c = '>' then none
      else (Tag.image.finish? rest).map (c :: ·) := by
  simp only [Tag.finish?, throughOpening?_cons]
  by_cases hc : c = '>'
  · subst hc
    rfl
  rw [if_neg hc, if_neg hc]
  cases hOpening : Tag.throughOpening? rest with
  | none =>
    have hHead : rest.head? ≠ some '>' := by
      intro hHead
      obtain ⟨left, rfl⟩ := List.head?_eq_some_iff.mp hHead
      simp [throughOpening?_cons] at hOpening
    simp [hHead]
  | some p =>
    obtain ⟨opening, left⟩ := p
    obtain ⟨front, hFront, rfl, rfl⟩ := Tag.throughOpening?_eq_some_iff.mp hOpening
    cases front with
    | nil =>
      by_cases hSlash : c = '/'
      · simp [hSlash]
      · simp [List.suffix_cons_iff, hSlash, Ne.symm hSlash]
    | cons d front =>
      have hHead : d ≠ '>' := by
        rintro rfl
        exact hFront List.mem_cons_self
      have hSuffix : ['/', '>'] <:+ c :: d :: (front ++ ['>']) ↔
          ['/', '>'] <:+ d :: (front ++ ['>']) := by
        rw [List.suffix_cons_iff, or_iff_right]
        simp
      simp [hHead, hSuffix]

theorem matches_finish (tag : Tag) :
    ending.Matches ((finishExprs tag).foldr Expr.matchThen accepted) tag.finish? := by
  cases tag with
  | script =>
    rw [finishExprs, List.foldr_append]
    have hName := (List.forall_mem_append.mp (unfolded_name .script)).1
    refine (matches_opening (matches_throughClosing hName)).congr fun t => ?_
    rw [Tag.finish?]
    cases Tag.throughOpening? t <;> rfl
  | link =>
    rw [finishExprs, List.foldr_append]
    have hName := (List.forall_mem_append.mp (unfolded_name .link)).1
    have hClosing := (matches_closing hName).greedy .blank
      fun c rest hBlank => closing?_of_isBlank hBlank _ rest
    rw [← List.foldr_cons (f := Expr.matchThen), ← Expr.matchThen_seqOf] at hClosing
    refine (matches_opening (hClosing.optional matches_accepted)).congr fun t => ?_
    rw [Tag.finish?, contains_blank]
    rcases Tag.throughOpening? t with _ | ⟨opening, left⟩
    · rfl
    · dsimp only [Option.bind_some]
      cases Tag.closing? Tag.link.name (left.dropWhile Text.isBlank) <;> simp [ending]
  | image =>
    refine ((matches_accepted.oneOf (letterSet true '>')).oneOf (letterSet true '/')).reluctant rfl
      fun c rest => ?_
    have hMore : IsSign true '>' := fun _ => by decide
    have hSlash : IsSign true '/' := fun _ => by decide
    rw [image_finish?_cons, contains_sign hMore, contains_sign hSlash, contains_others hMore]
    cases rest with
    | nil => by_cases hc : c = '>' <;> simp [Noting.readOne, ending, hc]
    | cons d rest =>
      by_cases hc : c = '/' <;> by_cases hd : d = '>' <;> simp [Noting.readOne, ending, hc, hd]

/-! ## Tags -/

/-- A tag whose address is remembered as a group. -/
def tagExprs (tag : Tag) (group : Nat) : List Expr :=
  sign true '<' :: (spelling true tag.name ++ .look (.wordEdge false) ::
    .star (others true '>') false :: (attributeExprs true tag.form.name ++
      (quotedExprs true group '"' ++ finishExprs tag)))

/-- The name of a tag is a word, in any case. -/
theorem isWord_of_name (tag : Tag) :
    ∀ n ∈ tag.name, ∀ c, sameLetter true n c = true → Text.isWord c = true := by
  intro n hn c hSame
  obtain rfl : Text.fold c = n := beq_iff_eq.mp hSame
  obtain ⟨hLow, hHigh⟩ := name_lower tag _ (List.mem_append_left _ hn)
  exact Text.isWord_of_fold hLow hHigh

theorem matches_tag (tag : Tag) (group : Nat) :
    (addressed fun _ => group).Matches ((tagExprs tag group).foldr Expr.matchThen accepted)
      tag.cut? := by
  have hLess : IsSign true '<' := fun _ => by decide
  have hStop : IsSign true tag.form.stop := fun _ => (by decide : 0 < '>'.toNat ∧ '>'.toNat < 0x41)
  have hQuote : IsSign true '"' := fun _ => by decide
  obtain ⟨hName, hAttributeName⟩ := List.forall_mem_append.mp (unfolded_name tag)
  have hNonempty : tag.name ≠ [] := by cases tag <;> decide
  have hQuoted := matches_quoted (fun _ => group) hQuote (matches_finish tag)
  have hSame : tag.form.same = sameLetter true := rfl
  have hAttribute := matches_attribute hSame hAttributeName hQuoted
  have hSearch := matches_search hStop hAttribute
  have hTag := (hSearch.word hName hNonempty (isWord_of_name tag)).oneOf (letterSet true '<')
  rw [tagExprs, List.foldr_cons, List.foldr_append, List.foldr_cons, List.foldr_cons,
    List.foldr_append, List.foldr_append]
  refine hTag.congr fun t => ?_
  cases t with
  | nil => rfl
  | cons c rest =>
    rw [Noting.readOne, contains_sign hLess]
    by_cases hc : c = '<'
    · subst hc
      rw [if_pos (by simp), Tag.cut?]
      show Option.map _ ((stripName? inAnyCase tag.name rest).bind _) = _
      cases stripName? inAnyCase tag.name rest with
      | none => rfl
      | some left =>
        dsimp only [Option.bind_some]
        split
        · rw [Option.map_map]
          rfl
        · rfl
    · rw [if_neg (by simpa using hc), Tag.cut?.eq_def]
      split
      · next hText => exact absurd (List.cons.inj hText).1 hc
      · rfl

/-! ## All tags -/

/-- The pattern of tags: a script with its body, a link with its closing tag, if it has one, or an
image. -/
def embedSource : String :=
  "(?is)<script\\b[^>]*?\\ssrc=\"(?P<script>[^\"]*)\"[^>]*>.*?</script\\s*>" ++
  "|<link\\b[^>]*?\\shref=\"(?P<link>[^\"]*)\"[^>]*>(?:\\s*</link\\s*>)?" ++
  "|<img\\b[^>]*?\\ssrc=\"(?P<img>[^\"]*)\"[^>]*?/>"

def embedParsed : Parsed where
  expr := .altOf (.seqOf (.empty :: tagExprs .script 1))
    [.seqOf (tagExprs .link 2), .seqOf (tagExprs .image 3)]
  groups := 3
  names := [("img".toList, 3), ("link".toList, 2), ("script".toList, 1)]

theorem isProper_embed : embedParsed.expr.isProper = true := by
  decide +kernel

theorem parse_embedSource : (parse embedSource.toList).toOption = some embedParsed := by
  decide +kernel

/-- The group that the address of a tag is remembered as. -/
def embedGroup : DirectiveKind → Nat
  | .script => 1
  | .link => 2
  | _ => 3

/-- A tag of a kind. -/
def embedded : Noting (DirectiveKind × Cut) where
  note found := (addressed fun _ => embedGroup found.1).note found.2
  prepend front found := (found.1, found.2.prepend front)
  note_prepend front found := (addressed fun _ => embedGroup found.1).note_prepend front found.2
  prepend_prepend front more found :=
    congrArg (found.1, ·) ((addressed fun _ => 0).prepend_prepend front more found.2)

theorem matches_embed :
    embedded.Matches (embedParsed.expr.matchThen accepted) readEmbed := by
  intro before index t slots
  have hScript := matches_tag .script 1 before index t slots
  have hLink := matches_tag .link 2 before index t slots
  have hImage := matches_tag .image 3 before index t slots
  rw [← Expr.matchThen_seqOf] at hScript hLink hImage
  rw [readEmbed, Option.map_or, Option.map_or, Option.map_map, Option.map_map, Option.map_map]
  show ((Expr.seqOf (tagExprs .script 1)).matchThen accepted ⟨before, index, t⟩ slots).or
    (((Expr.seqOf (tagExprs .link 2)).matchThen accepted ⟨before, index, t⟩ slots).or
      ((Expr.seqOf (tagExprs .image 3)).matchThen accepted ⟨before, index, t⟩ slots)) = _
  rw [hScript, hLink, hImage]
  rfl

/-- The directive that a match of the pattern of tags stands for. -/
def embedOf? (p : Pattern) (t : Text) (slots : Slots) : Option Directive :=
  (ofMatch? p t slots "script" .script '"').or <|
    (ofMatch? p t slots "link" .link '"').or (ofMatch? p t slots "img" .image '"')

theorem note_embedded (kind : DirectiveKind) (cut : Cut) (index : Nat) (slots : Slots) :
    embedded.note (kind, cut) index slots =
      (addressed fun _ => embedGroup kind).note cut index slots := by
  rw [embedded]

/-- The address has been noted as the group of its kind. -/
theorem marks_embedded (kind : DirectiveKind) (cut : Cut) (start : Nat) :
    Marks (embedded.note (kind, cut) start (started 3 start)) (embedGroup kind) start cut := by
  have hGroup : 0 < embedGroup kind ∧ embedGroup kind ≤ 3 := by cases kind <;> decide
  rw [note_embedded]
  exact marks_addressed (started_zero ..) hGroup.1 (by simp only [size_started]; omega)

/-- The groups of other kinds have matched nothing. -/
theorem embedded_of_ne (kind : DirectiveKind) (cut : Cut) (start : Nat) {index : Nat}
    (hPos : 0 < index) (hGroup : index ≠ embedGroup kind) :
    (embedded.note (kind, cut) start (started 3 start))[2 * index]?.join = none := by
  rw [note_embedded, addressed_of_ne (by omega) (by omega) (by omega),
    started_of_pos _ _ (by omega)]

theorem embedOf?_eq {kind : DirectiveKind} {cut : Cut} (hEmbed : kind.isEmbed = true)
    (hQuote : cut.quote = '"') (source : String) (front rest : Text) :
    embedOf? (embedParsed.pattern source) (front ++ (cut.text ++ rest))
        (embedded.note (kind, cut) front.length (started 3 front.length)) =
      some (ofCut (byteLength front) kind cut) := by
  have hMarks := marks_embedded kind cut front.length
  have hOther {index : Nat} (hPos : 0 < index) (hGroup : index ≠ embedGroup kind) :=
    embedded_of_ne kind cut front.length hPos hGroup
  rw [embedOf?, ← hQuote]
  cases kind with
  | script => rw [hMarks.ofMatch?_eq _ _ rfl, Option.some_or]
  | link =>
    rw [ofMatch?_eq_none rfl (hOther (by decide) (by decide)), hMarks.ofMatch?_eq _ _ rfl,
      Option.none_or, Option.some_or]
  | image =>
    rw [ofMatch?_eq_none rfl (hOther (by decide) (by decide)),
      ofMatch?_eq_none rfl (hOther (by decide) (by decide)), hMarks.ofMatch?_eq _ _ rfl,
      Option.none_or, Option.none_or]
  | _ => cases hEmbed

/-- What the pattern of tags matches at the front of a text is what the reader of tags reads. -/
theorem describes_embed (source : String) :
    Describes embedParsed (embedOf? (embedParsed.pattern source)) readEmbed := by
  have hSame (t : Text) : readEmbed t = (readEmbed t).map id := by rw [Option.map_id]; rfl
  refine .of_matches isProper_embed matches_embed hSame ?_
  rintro front t ⟨kind, cut⟩ hRead
  obtain ⟨⟨rest, rfl⟩, hAttributed, -⟩ := sound_readEmbed _ _ _ hRead
  have hEmbed := kind_of_readEmbed hRead
  have hQuote : cut.quote = '"' := by
    have hMem := hAttributed.quote_mem
    cases kind <;> first | exact List.mem_singleton.mp hMem | cases hEmbed
  exact ⟨(marks_embedded kind cut front.length).whole.stop, embedOf?_eq hEmbed hQuote ..⟩

/-- The tags of a text are the matches of their pattern. -/
theorem scanEmbeds_eq_matches : ∃ p, parse? embedSource = .ok p ∧
    ∀ t, scanEmbeds t = (p.matchesFrom t 0).filterMap (embedOf? p t) :=
  ⟨_, parse?_eq_ok parse_embedSource,
    fun t => (describes_embed embedSource).scanFrom_eq sound_readEmbed embedSource [] t⟩

end AssetLoom.Directive
