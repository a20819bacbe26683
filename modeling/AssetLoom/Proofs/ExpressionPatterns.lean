import AssetLoom.Proofs.Matches

/-!
# The patterns of expressions

Includes, requires and widgets are the matches of three patterns (`scanIncludes_eq_matches`,
`scanRequires_eq_matches`, `scanWidgets_eq_matches`). Behind the braces and the blanks stands a
keyword (`matches_keyword`), or one of two words, which the match notes and which tells the kind
of directive (`matches_words`).
-/

namespace AssetLoom.Directive

open Pattern
open Text (byteLength)

variable {name : Text} {sequel : Sequel} {c : Char}

/-- What an expression has behind the value of its attribute. -/
def bracesExprs : List Expr :=
  [.star (others false '}') true, sign false '}', sign false '}']

theorem matches_braces :
    ending.Matches (bracesExprs.foldr Expr.matchThen accepted) throughBraces? := by
  have hSign := isSign_false '}'
  have hBraces := (matches_accepted.oneOf (letterSet false '}')).oneOf (letterSet false '}')
  refine (hBraces.greedy (others false '}') fun c rest hOther => ?_).congr fun t => ?_
  · rw [contains_others hSign] at hOther
    rw [Noting.readOne, contains_sign hSign, if_neg (by simpa using hOther)]
  · rw [throughBraces?, contains_others hSign, contains_sign hSign]
    rcases t.dropWhile (· ≠ '}') with _ | ⟨c, _ | ⟨d, rest⟩⟩
    · rfl
    · by_cases hc : c = '}' <;> simp [Noting.readOne, hc]
    · by_cases hc : c = '}' <;> by_cases hd : d = '}' <;>
        simp [Noting.readOne, ending, hc, hd]

/-- What an expression begins with. -/
def openExprs : List Expr :=
  [sign false '{', sign false '{', .star .blank true]

/-- Reads behind the braces of an expression and the blanks that follow them. -/
def readBehindBraces {α : Type} (noting : Noting α) (read : Text → Option α) : Text → Option α
  | '{' :: '{' :: rest =>
    (read (rest.dropWhile Text.isBlank)).map
      (noting.prepend ('{' :: '{' :: rest.takeWhile Text.isBlank))
  | _ => none

theorem matches_open {α : Type} {noting : Noting α} {read : Text → Option α}
    (h : noting.Matches sequel read)
    (hBlank : ∀ c rest, Text.isBlank c = true → read (c :: rest) = none) :
    noting.Matches (openExprs.foldr Expr.matchThen sequel) (readBehindBraces noting read) := by
  have hSign := isSign_false '{'
  refine (((h.greedy .blank hBlank).oneOf (letterSet false '{')).oneOf
    (letterSet false '{')).congr fun t => ?_
  rw [contains_sign hSign, contains_blank]
  unfold readBehindBraces
  split
  · simp [Noting.readOne, noting.prepend_prepend, Function.comp_def]
  · next hOther =>
    rcases t with _ | ⟨c, _ | ⟨d, t⟩⟩
    · rfl
    · simp [Noting.readOne]
    · by_cases hc : c = '{'
      · by_cases hd : d = '{'
        · exact absurd (by rw [hc, hd]) (hOther t)
        · simp [Noting.readOne, hd]
      · simp [Noting.readOne, hc]

/-- Reads a keyword and what comes behind it. -/
def readKeyword {α : Type} (noting : Noting α) (keyword : Text) (read : Text → Option α)
    (t : Text) : Option α :=
  (stripName? exactly keyword t).bind fun left =>
    if endsWord left then (read left).map (noting.prepend keyword) else none

theorem cutExpression?_eq_readBehindBraces (group : Char → Nat) (keyword : Text)
    (form : AttributeForm) (t : Text) :
    cutExpression? keyword form t = readBehindBraces (addressed group)
      (readKeyword (addressed group) keyword (findAttribute? form throughBraces?)) t := by
  unfold cutExpression?
  split
  · next rest =>
    show _ = Option.map _ (Option.bind _ _)
    cases stripName? exactly keyword (rest.dropWhile Text.isBlank) with
    | none => rfl
    | some left =>
      dsimp only [Option.bind_some]
      split
      · rw [Option.map_map]
        simp only [Function.comp_def, Noting.prepend_prepend]
        rfl
      · rfl
  · next hOther =>
    unfold readBehindBraces
    split
    · next rest => exact absurd rfl (hOther rest)
    · rfl

/-- A keyword does not start with a blank. -/
theorem readKeyword_of_isBlank {α : Type} {noting : Noting α} {keyword : Text}
    {read : Text → Option α} (hKeyword : ∀ n ∈ keyword, Text.isWord n = true)
    (hNonempty : keyword ≠ [])
    (hBlank : Text.isBlank c = true) (rest : Text) :
    readKeyword noting keyword read (c :: rest) = none := by
  obtain ⟨n, keyword, rfl⟩ := List.exists_cons_of_ne_nil hNonempty
  have hNe : c ≠ n := by
    rintro rfl
    simp [Text.isWord_of_isBlank hBlank] at hKeyword
  rw [readKeyword, stripName?, exactly, if_neg (by simpa using hNe)]
  rfl

/-- A word that is written in small letters or with underscores, and so compared as it is. -/
def IsKeyword (keyword : Text) : Prop :=
  keyword ≠ [] ∧ ∀ n ∈ keyword, Text.Unfolded n ∧ Text.isWord n = true

instance : DecidablePred IsKeyword := fun keyword =>
  inferInstanceAs (Decidable (keyword ≠ [] ∧ ∀ n ∈ keyword, Text.Unfolded n ∧ Text.isWord n = true))

theorem IsKeyword.isWord (h : IsKeyword name) :
    ∀ n ∈ name, ∀ c, sameLetter false n c = true → Text.isWord c = true := by
  intro n hn c hSame
  obtain rfl : c = n := beq_iff_eq.mp hSame
  exact (h.2 c hn).2

theorem matches_keyword {α : Type} {noting : Noting α} {read : Text → Option α}
    (hKeyword : IsKeyword name) (h : noting.Matches sequel read) :
    noting.Matches
      ((spelling false name).foldr Expr.matchThen
        ((Expr.look (.wordEdge false)).matchThen sequel)) (readKeyword noting name read) := by
  have hName : ∀ n ∈ name, Text.Unfolded n := fun n hn => (hKeyword.2 n hn).1
  refine (h.word hName hKeyword.1 hKeyword.isWord).congr fun t => ?_
  refine Option.bind_congr fun left hStrip => ?_
  rw [stripName?_exactly_eq_some_iff.mp hStrip, List.take_left]

/-- A directive with the word that tells its kind, which is remembered as the group 1. -/
structure Worded where
  word : Text
  /-- Where the word starts. -/
  start : Nat
  cut : Cut

def worded (group : Char → Nat) : Noting Worded where
  note found index slots :=
    let slots := slots.setIfInBounds 2 (some (index + found.start))
    let slots := slots.setIfInBounds 3 (some (index + found.start + found.word.length))
    (addressed group).note found.cut index slots
  prepend front found :=
    { found with start := front.length + found.start, cut := found.cut.prepend front }
  note_prepend front found index slots := by
    simp only [← Nat.add_assoc]
    exact (addressed group).note_prepend ..
  prepend_prepend front more found := by
    simp only [List.length_append, ← Nat.add_assoc, Cut.prepend, List.append_assoc]

theorem note_worded (group : Char → Nat) (found : Worded) (index : Nat) (slots : Slots) :
    (worded group).note found index slots = (addressed group).note found.cut index
      ((slots.setIfInBounds 2 (some (index + found.start))).setIfInBounds 3
        (some (index + found.start + found.word.length))) := by
  rw [worded]

/-- Reads a keyword whose end, a word of its own, tells the kind of a directive. -/
def readWord (group : Char → Nat) (front word : Text) (read : Text → Option Cut) (t : Text) :
    Option Worded :=
  (readKeyword (addressed group) (front ++ word) read t).map fun cut => ⟨word, front.length, cut⟩

/-- One of two words. -/
def wordExpr (first second : Text) : Expr :=
  .group 1 (.alt (.seqOf (spelling false first)) (.seqOf (spelling false second)))

section Words

variable {group : Char → Nat} {front word first second : Text} {read : Text → Option Cut}

theorem readWord_append (t : Text) :
    readWord group front word read t = (stripName? exactly front t).bind fun left =>
      (readWord group [] word read left).map ((worded group).prepend (t.take front.length)) := by
  rw [readWord, readKeyword, stripName?_append_name]
  cases hStrip : stripName? exactly front t with
  | none => rfl
  | some left =>
    obtain rfl := stripName?_exactly_eq_some_iff.mp hStrip
    simp only [Option.bind_some, readWord, readKeyword, List.take_left, List.nil_append]
    cases stripName? exactly word left with
    | none => rfl
    | some left =>
      dsimp only [Option.bind_some]
      split
      · simp [worded, Function.comp_def, addressed, Cut.prepend]
      · rfl

theorem matches_word (hWord : IsKeyword word) (h : (addressed group).Matches sequel read)
    (before : Option Char) (index : Nat) (t : Text) (slots : Slots) :
    (Expr.seqOf (spelling false word)).matchThen ((Expr.look (.wordEdge false)).matchThen
        fun stop slots => sequel stop (slots.setIfInBounds 3 (some stop.index)))
        ⟨before, index, t⟩ (slots.setIfInBounds 2 (some index)) =
      (readWord group [] word read t).map fun found => (worded group).note found index slots := by
  have hName : ∀ n ∈ word, Text.Unfolded n := fun n hn => (hWord.2 n hn).1
  rw [Expr.matchThen_seqOf, foldr_word hName hWord.1 hWord.isWord, readWord, readKeyword,
    List.nil_append]
  show Option.bind (stripName? exactly word t) _ = _
  cases stripName? exactly word t with
  | none => rfl
  | some left =>
    dsimp only [Option.bind_some]
    split
    · rw [h, Option.map_map, Option.map_map]
      simp only [Function.comp_def, worded, Noting.note_prepend]
      rfl
    · rfl

theorem matches_words (hFront : ∀ n ∈ front, Text.Unfolded n) (hFirst : IsKeyword first)
    (hSecond : IsKeyword second) (h : (addressed group).Matches sequel read) :
    (worded group).Matches
      ((spelling false front).foldr Expr.matchThen
        ((wordExpr first second).matchThen ((Expr.look (.wordEdge false)).matchThen sequel)))
      fun t => (readWord group front first read t).or (readWord group front second read t) := by
  have hWords : (worded group).Matches
      ((wordExpr first second).matchThen ((Expr.look (.wordEdge false)).matchThen sequel))
      fun t => (readWord group [] first read t).or (readWord group [] second read t) := by
    intro before index t slots
    rw [Option.map_or, ← matches_word hFirst h before, ← matches_word hSecond h before]
    rfl
  refine (hWords.spelled hFront).congr fun t => ?_
  rw [readWord_append, readWord_append t]
  show Option.bind (stripName? exactly front t) _ = _
  cases stripName? exactly front t with
  | none => rfl
  | some left => exact Option.map_or

end Words

/-! ## The search for the attribute -/

/-- What follows the keyword of an expression: the search for the attribute, its value and the
rest. -/
def searchExprs (name : Text) (value : List Expr) : List Expr :=
  .star (others false '}') false :: (attributeExprs false name ++ (value ++ bracesExprs))

/-- A value in double or single quotes, each with a group of its own. -/
def eitherQuoted (group : Nat) : Expr :=
  .alt (.seqOf (quotedExprs false group '"')) (.seqOf (quotedExprs false (group + 1) '\''))

/-- The group of a value, if it is in double or single quotes. -/
def quoteGroup (group : Nat) (quote : Char) : Nat :=
  if quote = '"' then group else group + 1

theorem matches_eitherQuoted (group : Nat) {finish : Text → Option Text}
    (h : ending.Matches sequel finish) :
    (addressed (quoteGroup group)).Matches ((eitherQuoted group).matchThen sequel)
      (cutQuoted? ['"', '\''] finish) := by
  have hDouble : (addressed (quoteGroup group)).Matches
      ((quotedExprs false group '"').foldr Expr.matchThen sequel) (cutQuoted? ['"'] finish) :=
    matches_quoted (quoteGroup group) (isSign_false _) h
  have hSingle : (addressed (quoteGroup group)).Matches
      ((quotedExprs false (group + 1) '\'').foldr Expr.matchThen sequel)
      (cutQuoted? ['\''] finish) :=
    matches_quoted (quoteGroup group) (isSign_false _) h
  intro before index t slots
  rw [cutQuoted?_pair _ _ (by decide), Option.map_or, ← hDouble before, ← hSingle before,
    ← Expr.matchThen_seqOf, ← Expr.matchThen_seqOf]
  rfl

theorem matches_searchExprs {group : Char → Nat} {quotes : List Char} {value : List Expr}
    (hName : ∀ n ∈ name, Text.Unfolded n)
    (hValue : (addressed group).Matches
      (value.foldr Expr.matchThen (bracesExprs.foldr Expr.matchThen accepted))
      (cutQuoted? quotes throughBraces?)) :
    (addressed group).Matches ((searchExprs name value).foldr Expr.matchThen accepted)
      (findAttribute? (expressionAttribute name quotes) throughBraces?) := by
  let form := expressionAttribute name quotes
  have hAttribute : (addressed group).Matches
      ((attributeExprs false form.name).foldr Expr.matchThen
        (value.foldr Expr.matchThen (bracesExprs.foldr Expr.matchThen accepted)))
      (cutAttribute? form throughBraces?) :=
    matches_attribute rfl hName hValue
  have hStop : IsSign false form.stop := isSign_false _
  have hSearch := matches_search hStop hAttribute
  simp only [searchExprs, List.foldr_cons, List.foldr_append]
  exact hSearch

/-! ## What a match has noted -/

section Worded

variable {group : Char → Nat} {front word first second t : Text} {read : Text → Option Cut}
  {found : Worded} {slots : Slots} {start : Nat}

/-- The word stands in the text. -/
def Worded.Stands (found : Worded) (t : Text) : Prop :=
  ∃ x y, t = x ++ (found.word ++ y) ∧ x.length = found.start

/-- An expression with one of two words. -/
def readEither (group : Char → Nat) (front first second : Text) (read : Text → Option Cut) :
    Text → Option Worded :=
  readBehindBraces (worded group) fun t =>
    (readWord group front first read t).or (readWord group front second read t)

theorem stands_of_readWord (h : readWord group front word read t = some found) :
    found.word = word ∧ found.Stands t := by
  obtain ⟨cut, hCut, rfl⟩ := Option.map_eq_some_iff.mp h
  obtain ⟨left, hStrip, -⟩ := Option.bind_eq_some_iff.mp hCut
  exact ⟨rfl, front, left, by rw [stripName?_exactly_eq_some_iff.mp hStrip, List.append_assoc], rfl⟩

theorem stands_of_readEither (h : readEither group front first second read t = some found) :
    (found.word = first ∨ found.word = second) ∧ found.Stands t := by
  unfold readEither readBehindBraces at h
  split at h
  · next rest =>
    obtain ⟨inner, hInner, rfl⟩ := Option.map_eq_some_iff.mp h
    have hWord : (inner.word = first ∨ inner.word = second) ∧
        inner.Stands (rest.dropWhile Text.isBlank) := by
      rcases Option.or_eq_some_iff.mp hInner with hFirst | ⟨-, hSecond⟩
      · exact (stands_of_readWord hFirst).imp_left .inl
      · exact (stands_of_readWord hSecond).imp_left .inr
    obtain ⟨x, y, hText, hStart⟩ := hWord.2
    refine ⟨hWord.1, '{' :: '{' :: rest.takeWhile Text.isBlank ++ x, y, ?_, ?_⟩
    · simp only [worded, List.cons_append, List.append_assoc, ← hText,
        List.takeWhile_append_dropWhile]
    · simp only [worded, List.length_append, hStart]
  · cases h

/-- Without the word this is an expression with one keyword or the other. -/
theorem map_readEither (group : Char → Nat) (front first second : Text) (form : AttributeForm)
    (kindOf : Text → DirectiveKind) (t : Text) :
    (readEither group front first second (findAttribute? form throughBraces?) t).map
        (fun found => (kindOf found.word, found.cut)) =
      ((cutExpression? (front ++ first) form t).map (kindOf first, ·)).or
        ((cutExpression? (front ++ second) form t).map (kindOf second, ·)) := by
  rw [cutExpression?_eq_readBehindBraces group, cutExpression?_eq_readBehindBraces group]
  unfold readEither readBehindBraces
  split
  · simp only [Option.map_map, Option.map_or, readWord, Function.comp_def, worded]
    rfl
  · rfl

/-- The address and the word have been noted. -/
theorem noted_worded (hStart : slots[0]? = some (some start)) (hGroup : 1 < group found.cut.quote)
    (hSize : 2 * group found.cut.quote + 1 < slots.size) :
    Marks ((worded group).note found start slots) (group found.cut.quote) start found.cut ∧
      Noted ((worded group).note found start slots) 1 (start + found.start)
        (start + found.start + found.word.length) := by
  rw [note_worded]
  refine ⟨marks_addressed ?_ (by omega) (by simpa using hSize), ?_, ?_⟩
  · rw [Array.getElem?_setIfInBounds_ne (by omega), Array.getElem?_setIfInBounds_ne (by omega),
      hStart]
  · rw [addressed_of_ne (by omega) (by omega) (by omega),
      Array.getElem?_setIfInBounds_ne (by omega),
      Array.getElem?_setIfInBounds_self_of_lt (by omega)]
    rfl
  · rw [addressed_of_ne (by omega) (by omega) (by omega),
      Array.getElem?_setIfInBounds_self_of_lt (by simp; omega)]
    rfl

end Worded

/-! ## The patterns -/

/-- An expression with one of two words that go on from a common front. -/
def eitherExprs (front first second name : Text) (value : List Expr) : List Expr :=
  openExprs ++ (spelling false front ++
    wordExpr first second :: .look (.wordEdge false) :: searchExprs name value)

theorem matches_eitherExprs {group : Char → Nat} {quotes : List Char} {value : List Expr}
    {front first second : Text} (hFront : ∀ n ∈ front, Text.Unfolded n) (hFirst : IsKeyword first)
    (hSecond : IsKeyword second) (hWord : ∀ n ∈ front, Text.isWord n = true)
    (hName : ∀ n ∈ name, Text.Unfolded n)
    (hValue : (addressed group).Matches
      (value.foldr Expr.matchThen (bracesExprs.foldr Expr.matchThen accepted))
      (cutQuoted? quotes throughBraces?)) :
    (worded group).Matches
      ((Expr.seqOf (.empty :: eitherExprs front first second name value)).matchThen accepted)
      (readEither group front first second
        (findAttribute? (expressionAttribute name quotes) throughBraces?)) := by
  have hWords := matches_words hFront hFirst hSecond (matches_searchExprs hName hValue)
  have hBlank {word : Text} (hKeyword : IsKeyword word) (c : Char) (rest : Text)
      (hBlank : Text.isBlank c = true) : readWord group front word
        (findAttribute? (expressionAttribute name quotes) throughBraces?) (c :: rest) = none := by
    rw [readWord, readKeyword_of_isBlank ?_ ?_ hBlank, Option.map_none]
    · exact List.forall_mem_append.mpr ⟨hWord, fun n hn => (hKeyword.2 n hn).2⟩
    · simp [hKeyword.1]
  rw [Expr.matchThen_seqOf, List.foldr_cons]
  simp only [eitherExprs, List.foldr_append, List.foldr_cons]
  refine matches_open hWords fun c rest hc => ?_
  rw [hBlank hFirst c rest hc, hBlank hSecond c rest hc, Option.none_or]

/-- The pattern of includes and extends. -/
def includeSource : String :=
  "(?s)\\\x7b\\\x7b\\s*(?P<verb>include|extends)\\b[^\x7d]*?\\s" ++
  "file=\"(?P<file>[^\"]*)\"[^\x7d]*\\\x7d\\\x7d"

def includeParsed : Parsed where
  expr := .seqOf (.empty ::
    eitherExprs [] "include".toList "extends".toList "file".toList (quotedExprs false 2 '"'))
  groups := 2
  names := [("file".toList, 2), ("verb".toList, 1)]

theorem parse_includeSource : (parse includeSource.toList).toOption = some includeParsed := by
  decide +kernel

/-- The pattern of requests for scripts and styles. -/
def requireSource : String :=
  "(?s)\\\x7b\\\x7b\\s*brisk_require_(?P<lang>js|css)\\b[^\x7d]*?\\s" ++
  "name=(?:\"(?P<dq>[^\"]*)\"|'(?P<sq>[^']*)')[^\x7d]*\\\x7d\\\x7d"

def requireParsed : Parsed where
  expr := .seqOf (.empty ::
    eitherExprs "brisk_require_".toList "js".toList "css".toList "name".toList [eitherQuoted 2])
  groups := 3
  names := [("sq".toList, 3), ("dq".toList, 2), ("lang".toList, 1)]

theorem parse_requireSource : (parse requireSource.toList).toOption = some requireParsed := by
  decide +kernel

/-- The pattern of widgets. -/
def widgetSource : String :=
  "(?s)\\\x7b\\\x7b\\s*brisk_widget\\b[^\x7d]*?\\s" ++
  "name=(?:\"(?P<dq>[^\"]*)\"|'(?P<sq>[^']*)')[^\x7d]*\\\x7d\\\x7d"

def widgetParsed : Parsed where
  expr := .seqOf (.empty :: (openExprs ++ (spelling false "brisk_widget".toList ++
    .look (.wordEdge false) :: searchExprs "name".toList [eitherQuoted 1])))
  groups := 2
  names := [("sq".toList, 2), ("dq".toList, 1)]

theorem parse_widgetSource : (parse widgetSource.toList).toOption = some widgetParsed := by
  decide +kernel

/-- What the group with a name has matched. -/
def namedText (p : Pattern) (t : Text) (slots : Slots) (name : String) : Option Text :=
  (p.names.lookup name.toList).bind (groupText t slots)

/-- The directive that a match with an address in double or single quotes stands for. -/
def quoted? (p : Pattern) (t : Text) (slots : Slots) (kind : DirectiveKind) : Option Directive :=
  (ofMatch? p t slots "dq" kind '"').or (ofMatch? p t slots "sq" kind '\'')

/-- The kind of directive that a verb tells. -/
def includeKind (verb : Option Text) : DirectiveKind :=
  if verb = some "extends".toList then .extendFile else .includeFile

/-- The directive that a match of the pattern of includes stands for. -/
def includeOf? (p : Pattern) (t : Text) (slots : Slots) : Option Directive :=
  ofMatch? p t slots "file" (includeKind (namedText p t slots "verb")) '"'

/-- The kind of directive that a language tells. -/
def requireKind (lang : Option Text) : DirectiveKind :=
  if lang = some "css".toList then .requireStyle else .requireScript

/-- The directive that a match of the pattern of requires stands for. -/
def requireOf? (p : Pattern) (t : Text) (slots : Slots) : Option Directive :=
  quoted? p t slots (requireKind (namedText p t slots "lang"))

/-- The directive that a match of the pattern of widgets stands for. -/
def widgetOf? (p : Pattern) (t : Text) (slots : Slots) : Option Directive :=
  quoted? p t slots .widget

section Found

variable {p : Pattern} {slots : Slots} {front rest : Text} {cut : Cut} {kind : DirectiveKind}
  {group : Char → Nat}

theorem quoted?_eq {g : Nat} (hDouble : p.names.lookup "dq".toList = some g)
    (hSingle : p.names.lookup "sq".toList = some (g + 1)) (hQuote : cut.quote ∈ ['"', '\''])
    (hMarks : Marks slots (quoteGroup g cut.quote) front.length cut)
    (hOther : cut.quote ≠ '"' → slots[2 * g]?.join = none) :
    quoted? p (front ++ (cut.text ++ rest)) slots kind =
      some (ofCut (byteLength front) kind cut) := by
  by_cases hCase : cut.quote = '"'
  · rw [quoteGroup, if_pos hCase] at hMarks
    have hFound := hMarks.ofMatch?_eq kind rest hDouble
    rw [hCase] at hFound
    rw [quoted?, hFound, Option.some_or]
  · have hCase' : cut.quote = '\'' := by simpa [hCase] using hQuote
    rw [quoteGroup, if_neg hCase] at hMarks
    have hFound := hMarks.ofMatch?_eq kind rest hSingle
    rw [hCase'] at hFound
    rw [quoted?, ofMatch?_eq_none hDouble (hOther hCase), Option.none_or, hFound]

/-- The word is what the first group has matched. -/
theorem Worded.Stands.namedText_eq {found : Worded} {t : Text} {name : String}
    (h : found.Stands t) (hName : p.names.lookup name.toList = some 1)
    (hNoted : Noted slots 1 (front.length + found.start)
      (front.length + found.start + found.word.length)) :
    namedText p (front ++ t) slots name = some found.word := by
  obtain ⟨x, y, rfl, hStart⟩ := h
  have hNoted' : Noted slots 1 (front ++ x).length (front ++ x ++ found.word).length := by
    simpa [hStart, Nat.add_assoc] using hNoted
  rw [namedText, hName, Option.bind_some, ← List.append_assoc, hNoted'.groupText_eq]

end Found

/-- A pattern of expressions with two words describes what is read with one keyword or the other. -/
theorem describes_either {parsed : Parsed} {source : String} {group : Char → Nat}
    {front first second : Text} {form : AttributeForm} (name : String)
    (kindOf : Option Text → DirectiveKind)
    {directiveOf? : Pattern → Text → Slots → Option Directive} {read : Reader} (hSound : Sound read)
    (isProper : parsed.expr.isProper = true)
    (hMatches : (worded group).Matches (parsed.expr.matchThen accepted)
      (readEither group front first second (findAttribute? form throughBraces?)))
    (hRead : ∀ t, read t =
      ((cutExpression? (front ++ first) form t).map (kindOf (some first), ·)).or
        ((cutExpression? (front ++ second) form t).map (kindOf (some second), ·)))
    (hForm : ∀ word, attributeForm (kindOf word) = form)
    (hGroup : ∀ quote ∈ form.quotes, 1 < group quote ∧ group quote ≤ parsed.groups)
    (hName : parsed.names.lookup name.toList = some 1)
    (hDirective : ∀ {before rest : Text} {slots : Slots} {found : Worded},
      found.cut.quote ∈ form.quotes →
      Marks slots (group found.cut.quote) before.length found.cut →
      (∀ i, 1 < i → i ≠ group found.cut.quote → slots[2 * i]?.join = none) →
      namedText (parsed.pattern source) (before ++ (found.cut.text ++ rest)) slots name =
        some found.word →
      directiveOf? (parsed.pattern source) (before ++ (found.cut.text ++ rest)) slots =
        some (ofCut (byteLength before) (kindOf (some found.word)) found.cut)) :
    Describes parsed (directiveOf? (parsed.pattern source)) read := by
  have hSame (t : Text) : read t =
      (readEither group front first second (findAttribute? form throughBraces?) t).map
        fun found => (kindOf (some found.word), found.cut) := by
    rw [hRead, map_readEither group front first second form fun word => kindOf (some word)]
  refine .of_matches isProper hMatches hSame fun before t found hReading => ?_
  have hFound := hSame t
  rw [hReading] at hFound
  obtain ⟨⟨rest, hText⟩, hAttributed, -⟩ := hSound _ _ _ hFound
  have hQuote := hAttributed.quote_mem
  rw [hForm] at hQuote
  obtain ⟨hPos, hLe⟩ := hGroup _ hQuote
  obtain ⟨hMarks, hNoted⟩ := noted_worded (started_zero parsed.groups before.length) hPos
    (by simp only [size_started]; omega)
  have hWord : namedText (parsed.pattern source) (before ++ t) _ name = some found.word :=
    (stands_of_readEither hReading).2.namedText_eq hName hNoted
  refine ⟨hMarks.whole.stop, ?_⟩
  rw [← hText] at hWord ⊢
  refine hDirective hQuote hMarks (fun i hi hne => ?_) hWord
  rw [note_worded, addressed_of_ne (by omega) (by omega) (by omega),
    Array.getElem?_setIfInBounds_ne (by omega), Array.getElem?_setIfInBounds_ne (by omega),
    started_of_pos _ _ (by omega)]

theorem readExpression_pair (first second : String) (kind kind' : DirectiveKind)
    (form : AttributeForm) (t : Text) :
    readExpression [(first, kind), (second, kind')] form t =
      ((cutExpression? first.toList form t).map (kind, ·)).or
        ((cutExpression? second.toList form t).map (kind', ·)) := by
  simp only [readExpression, List.findSome?]
  cases cutExpression? first.toList form t <;> cases cutExpression? second.toList form t <;> rfl

theorem describes_include (source : String) :
    Describes includeParsed (includeOf? (includeParsed.pattern source)) readInclude := by
  let group : Char → Nat := fun _ => 2
  let form := expressionAttribute "file".toList ['"']
  have hMatches : (worded group).Matches (includeParsed.expr.matchThen accepted)
      (readEither group [] "include".toList "extends".toList
        (findAttribute? form throughBraces?)) :=
    matches_eitherExprs (by simp) (by decide) (by decide) (by simp) (by decide)
      (matches_quoted group (isSign_false _) matches_braces)
  have hRead (t : Text) := readExpression_pair "include" "extends" .includeFile .extendFile form t
  refine describes_either "verb" includeKind sound_readInclude rfl hMatches hRead ?_ ?_ rfl ?_
  · intro word
    unfold includeKind
    split <;> rfl
  · decide
  · intro before rest slots found hQuote hMarks hOther hWord
    rw [includeOf?, hWord, ← List.mem_singleton.mp hQuote]
    exact hMarks.ofMatch?_eq _ _ rfl

theorem describes_require (source : String) :
    Describes requireParsed (requireOf? (requireParsed.pattern source)) readRequire := by
  let form := expressionAttribute "name".toList ['"', '\'']
  have hMatches : (worded (quoteGroup 2)).Matches (requireParsed.expr.matchThen accepted)
      (readEither (quoteGroup 2) "brisk_require_".toList "js".toList "css".toList
        (findAttribute? form throughBraces?)) :=
    matches_eitherExprs (by decide) (by decide) (by decide) (by decide) (by decide)
      (matches_eitherQuoted 2 matches_braces)
  have hRead (t : Text) := readExpression_pair "brisk_require_js" "brisk_require_css"
    .requireScript .requireStyle form t
  refine describes_either "lang" requireKind sound_readRequire rfl hMatches hRead ?_ ?_ rfl ?_
  · intro word
    unfold requireKind
    split <;> rfl
  · decide
  · intro before rest slots found hQuote hMarks hOther hWord
    rw [requireOf?, hWord]
    refine quoted?_eq rfl rfl hQuote hMarks fun hCase => hOther 2 (by decide) ?_
    rw [quoteGroup, if_neg hCase]
    decide

theorem matches_widget : (addressed (quoteGroup 1)).Matches
    (widgetParsed.expr.matchThen accepted)
    (cutExpression? "brisk_widget".toList (expressionAttribute "name".toList ['"', '\''])) := by
  have hKeyword : IsKeyword "brisk_widget".toList := by decide
  have hSearch : (addressed (quoteGroup 1)).Matches
      ((searchExprs "name".toList [eitherQuoted 1]).foldr Expr.matchThen accepted)
      (findAttribute? (expressionAttribute "name".toList ['"', '\'']) throughBraces?) :=
    matches_searchExprs (by decide) (matches_eitherQuoted 1 matches_braces)
  have hOpen := matches_open (matches_keyword hKeyword hSearch) fun c rest hBlank =>
    readKeyword_of_isBlank (fun n hn => (hKeyword.2 n hn).2) hKeyword.1 hBlank rest
  rw [widgetParsed, Expr.matchThen_seqOf, List.foldr_cons, List.foldr_append, List.foldr_append]
  exact hOpen.congr fun t => (cutExpression?_eq_readBehindBraces ..).symm

theorem readWidget_eq (t : Text) : readWidget t =
    (cutExpression? "brisk_widget".toList (expressionAttribute "name".toList ['"', '\'']) t).map
      (DirectiveKind.widget, ·) := by
  simp only [readWidget, readExpression, List.findSome?]
  cases cutExpression? "brisk_widget".toList _ t <;> rfl

/-- The group of a value is the first or the second one. -/
theorem quoteGroup_one (quote : Char) : 0 < quoteGroup 1 quote ∧ quoteGroup 1 quote ≤ 2 := by
  unfold quoteGroup
  split <;> decide

theorem describes_widget (source : String) :
    Describes widgetParsed (widgetOf? (widgetParsed.pattern source)) readWidget := by
  refine .of_matches rfl matches_widget readWidget_eq fun front t cut hReading => ?_
  have hFound := readWidget_eq t
  rw [hReading] at hFound
  obtain ⟨⟨rest, hText⟩, hAttributed, -⟩ := sound_readWidget _ _ _ hFound
  obtain ⟨hPos, hLe⟩ := quoteGroup_one cut.quote
  have hMarks :
      Marks ((addressed (quoteGroup 1)).note cut front.length (started 2 front.length))
        (quoteGroup 1 cut.quote) front.length cut :=
    marks_addressed (started_zero ..) hPos (by simp only [size_started]; omega)
  refine ⟨hMarks.whole.stop, ?_⟩
  rw [← hText]
  refine quoted?_eq rfl rfl hAttributed.quote_mem hMarks fun hCase => ?_
  have hOther : quoteGroup 1 cut.quote = 2 := if_neg hCase
  rw [addressed_of_ne (by omega) (by omega) (by omega), started_of_pos _ _ (by omega)]

/-- The includes of a text are the matches of their pattern. -/
theorem scanIncludes_eq_matches : ∃ p, parse? includeSource = .ok p ∧
    ∀ t, scanIncludes t = (p.matchesFrom t 0).filterMap (includeOf? p t) :=
  ⟨_, parse?_eq_ok parse_includeSource,
    fun t => (describes_include _).scanFrom_eq sound_readInclude includeSource [] t⟩

/-- The requests of a text are the matches of their pattern. -/
theorem scanRequires_eq_matches : ∃ p, parse? requireSource = .ok p ∧
    ∀ t, scanRequires t = (p.matchesFrom t 0).filterMap (requireOf? p t) :=
  ⟨_, parse?_eq_ok parse_requireSource,
    fun t => (describes_require _).scanFrom_eq sound_readRequire requireSource [] t⟩

/-- The widgets of a text are the matches of their pattern. -/
theorem scanWidgets_eq_matches : ∃ p, parse? widgetSource = .ok p ∧
    ∀ t, scanWidgets t = (p.matchesFrom t 0).filterMap (widgetOf? p t) :=
  ⟨_, parse?_eq_ok parse_widgetSource,
    fun t => (describes_widget _).scanFrom_eq sound_readWidget widgetSource [] t⟩

end AssetLoom.Directive
