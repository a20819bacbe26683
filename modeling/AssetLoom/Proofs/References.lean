import AssetLoom.Proofs.Mark
import AssetLoom.Proofs.Matching

/-!
# References in templates

A template for what a match is replaced by is a text in which some dollar signs do not stand for
themselves. A text without such a sign is plain, and is filled in as it is, whatever has been
matched (`expand_of_plain`). Of a text that is not plain this holds by chance only: it becomes
shorter, or a group has put something in (`expand_ne_of_not_plain`).

`anyText` is the pattern of all texts, each of which it matches as a whole (`spans_anyText`).
-/

namespace AssetLoom.Pattern

variable {p : Pattern} {found : Match} {t rest front : Text} {c : Char}

/-! ## Plain texts -/

/-- What follows a dollar sign that does not stand for itself: another one, a name in braces, or a
name. -/
inductive FollowsMark : Text → Prop
  | dollar (rest : Text) : FollowsMark ('$' :: rest)
  | braces {rest : Text} (hClose : '}' ∈ rest) : FollowsMark ('{' :: rest)
  | name {c : Char} (rest : Text) (hChar : isReferenceChar c = true) : FollowsMark (c :: rest)

theorem followsMark_cons_iff {rest : Text} :
    FollowsMark (c :: rest) ↔ c = '$' ∨ (c = '{' ∧ '}' ∈ rest) ∨ isReferenceChar c = true := by
  constructor
  · rintro (_ | hClose | ⟨_, hChar⟩)
    · exact .inl rfl
    · exact .inr (.inl ⟨rfl, hClose⟩)
    · exact .inr (.inr hChar)
  · rintro (rfl | ⟨rfl, hClose⟩ | hChar)
    · exact .dollar rest
    · exact .braces hClose
    · exact .name rest hChar

instance decidableFollowsMark : DecidablePred FollowsMark
  | [] => isFalse nofun
  | _ :: _ => decidable_of_iff _ followsMark_cons_iff.symm

/-- Every dollar sign of the text stands for itself. -/
def Plain (t : Text) : Prop :=
  ∀ rest, '$' :: rest <:+ t → ¬FollowsMark rest

theorem plain_nil : Plain [] := by
  intro rest h
  simp at h

theorem plain_cons_iff : Plain (c :: t) ↔ (c = '$' → ¬FollowsMark t) ∧ Plain t := by
  constructor
  · intro h
    refine ⟨?_, fun rest hRest => h rest (hRest.trans (List.suffix_cons c t))⟩
    rintro rfl
    exact h t List.suffix_rfl
  · rintro ⟨hFirst, hRest⟩ rest h
    rcases List.suffix_cons_iff.mp h with hEq | hSuffix
    · obtain ⟨rfl, rfl⟩ := List.cons.inj hEq
      exact hFirst rfl
    · exact hRest rest hSuffix

instance decidablePlain : DecidablePred Plain
  | [] => isTrue plain_nil
  | _ :: t =>
    have := decidablePlain t
    decidable_of_iff _ plain_cons_iff.symm

example : Plain ("a$.js".toList) ∧ ¬Plain ("a$b.js".toList) := by decide

theorem plain_of_notMem (h : '$' ∉ t) : Plain t :=
  fun _ hRest => absurd (hRest.mem List.mem_cons_self) h

/-! ## Filling in -/

theorem expand_cons_of_ne (h : c ≠ '$') :
    expand p found (c :: t) = c :: expand p found t :=
  expand.eq_5 p found c t (fun _ hc => absurd hc h) (fun _ hc => absurd hc h) h

/-- What precedes the first dollar sign is copied. -/
theorem expand_append (h : '$' ∉ front) :
    expand p found (front ++ t) = front ++ expand p found t := by
  induction front with
  | nil => rfl
  | cons c front ih =>
    obtain ⟨hFirst, hRest⟩ := not_or.mp (List.mem_cons.not.mp h)
    rw [List.cons_append, expand_cons_of_ne (Ne.symm hFirst), ih hRest, List.cons_append]

theorem followsMark_of_dropWhile {left : Text} (h : t.dropWhile (· ≠ '}') = c :: left) :
    FollowsMark ('{' :: t) := by
  obtain ⟨name, -, hEq⟩ := Text.eq_of_dropWhile_ne h
  exact .braces (by simp [hEq])

theorem followsMark_of_takeWhile (h : t.takeWhile isReferenceChar ≠ []) : FollowsMark t := by
  cases t with
  | nil => simp at h
  | cons c rest =>
    by_cases hChar : isReferenceChar c = true
    · exact .name rest hChar
    · exact absurd (List.takeWhile_cons_of_neg hChar) h

/-- A plain text is filled in as it is, whatever has been matched. -/
theorem expand_of_plain (h : Plain t) : expand p found t = t := by
  fun_induction expand p found t with
  | case1 => rfl
  | case2 rest => exact absurd (.dollar rest) ((plain_cons_iff.mp h).1 rfl)
  | case3 rest last left hClose =>
    exact absurd (followsMark_of_dropWhile hClose) ((plain_cons_iff.mp h).1 rfl)
  | case6 rest _ _ hName =>
    exact absurd (followsMark_of_takeWhile hName) ((plain_cons_iff.mp h).1 rfl)
  | case4 rest _ ih
  | case5 rest _ _ _ ih
  | case7 c rest _ _ _ ih => rw [ih (plain_cons_iff.mp h).2]

theorem not_followsMark_brace (h : t.dropWhile (· ≠ '}') = []) : ¬FollowsMark ('{' :: t) := by
  rw [followsMark_cons_iff]
  rintro (hDollar | ⟨-, hClose⟩ | hChar)
  · exact absurd hDollar (by decide)
  · have hAll := List.dropWhile_eq_nil_iff.mp h '}' hClose
    simp at hAll
  · exact absurd hChar (by decide)

theorem not_followsMark (hDollar : ∀ rest, t ≠ '$' :: rest) (hBrace : ∀ rest, t ≠ '{' :: rest)
    (hName : t.takeWhile isReferenceChar = []) : ¬FollowsMark t := by
  rintro (rest | hClose | ⟨rest, hChar⟩)
  · exact hDollar rest rfl
  · exact hBrace _ rfl
  · rw [List.takeWhile_cons_of_pos hChar] at hName
    cases hName

/-- The text `filled` has the character `c`, or is not longer than the template `t`, and shorter if
the template is not plain. -/
def Shrinks (c : Char) (t filled : Text) : Prop :=
  c ∈ filled ∨ filled.length ≤ t.length ∧ (¬Plain t → filled.length < t.length)

theorem Shrinks.of_lt {filled : Text} (h : filled.length < t.length) : Shrinks c t filled :=
  .inr ⟨Nat.le_of_lt h, fun _ => h⟩

/-- A character that is copied changes nothing. -/
theorem Shrinks.cons {d : Char} {filled : Text} (h : Shrinks c t filled)
    (hPlain : Plain t → Plain (d :: t)) : Shrinks c (d :: t) (d :: filled) := by
  refine h.imp (List.mem_cons_of_mem d) fun ⟨hLe, hLt⟩ => ⟨?_, fun hNot => ?_⟩
  · exact Nat.succ_le_succ hLe
  · exact Nat.succ_lt_succ (hLt fun hRest => hNot (hPlain hRest))

/-- What comes in the place of a longer piece of the template, if it is nothing or has `c`. -/
theorem Shrinks.append {t' value filled : Text} (h : Shrinks c t filled)
    (hValue : value = [] ∨ c ∈ value) (hLess : t.length < t'.length) :
    Shrinks c t' (value ++ filled) := by
  rcases hValue with rfl | hMem
  · rcases h with hMem | ⟨hLe, -⟩
    · exact .inl hMem
    · exact .of_lt (Nat.lt_of_le_of_lt hLe hLess)
  · exact .inl (List.mem_append_left filled hMem)

/-- If all groups that have matched anything have matched the character `c`, it comes in by any
reference that is not filled with nothing. -/
theorem shrinks_expand
    (hGroups : ∀ name, reference p found name = [] ∨ c ∈ reference p found name) (t : Text) :
    Shrinks c t (expand p found t) := by
  -- A dollar sign that is copied does not begin a reference, so the text is plain if its rest is;
  -- in the other cases less is written than is read.
  fun_induction expand p found t with
  | case1 => exact .inr ⟨Nat.le_refl _, fun h => absurd plain_nil h⟩
  | case2 rest ih =>
    rcases ih with hMem | ⟨hLe, -⟩
    · exact .inl (List.mem_cons_of_mem _ hMem)
    · exact .of_lt (by simp only [List.length_cons]; omega)
  | case3 rest last left hClose ih =>
    refine ih.append (hGroups _) ?_
    have := length_lt_of_dropWhile_eq_cons hClose
    simp only [List.length_cons]
    omega
  | case4 rest hClose ih =>
    exact ih.cons fun h => plain_cons_iff.mpr ⟨fun _ => not_followsMark_brace hClose, h⟩
  | case5 rest hDollar hBrace hName ih =>
    exact ih.cons fun h => plain_cons_iff.mpr ⟨fun _ => not_followsMark hDollar hBrace hName, h⟩
  | case6 rest _ _ hName ih =>
    refine ih.append (hGroups _) ?_
    have := length_dropWhile_le isReferenceChar rest
    simp only [List.length_cons]
    omega
  | case7 d rest _ _ hNe ih =>
    exact ih.cons fun h => plain_cons_iff.mpr ⟨fun hd => absurd hd hNe, h⟩

/-- A text that is not plain is not filled in as it is if the groups put in only what it has not. -/
theorem expand_ne_of_not_plain
    (hGroups : ∀ name, reference p found name = [] ∨ c ∈ reference p found name)
    (hMem : c ∉ t) (hPlain : ¬Plain t) : expand p found t ≠ t := by
  intro hSame
  rcases shrinks_expand hGroups t with hIn | ⟨-, hLt⟩
  · exact hMem (hSame ▸ hIn)
  · exact absurd (hLt hPlain) (by rw [hSame]; exact Nat.lt_irrefl _)

/-! ## Matches of whole texts -/

/-- The first match in a text is all of it. -/
structure Spans (p : Pattern) (t : Text) (found : Match) : Prop where
  find : p.find? t = some found
  before : found.before = []
  after : found.after = []

theorem Spans.replaceFirst_eq (h : Spans p t found) (template : Text) :
    p.replaceFirst t template = expand p found template := by
  rw [replaceFirst, h.find]
  simp [h.before, h.after]

/-- Any characters, as many as there are. -/
def anySource : String :=
  "(?s).*"

/-- From its end: the loop 2 with its body 3, between the notes of the ends. -/
def anyMachine : Machine :=
  ⟨4, #[.accept, .note 1 0, .fork 3 1, .read (.compl .empty) 2, .note 0 2]⟩

/-- The pattern that each text matches as a whole. -/
def anyText : Pattern :=
  ⟨anySource, anyMachine, 0, []⟩

/-- The expression that the machine is for. -/
def anyParsed : Parsed where
  expr := .seqOf [.empty, .star (.compl .empty) true]
  groups := 0
  names := []

theorem pattern_anyParsed : anyParsed.pattern anySource = anyText :=
  rfl

theorem parse?_anySource : parse? anySource = .ok anyText := by
  have hParse : (parse anySource.toList).toOption = some anyParsed := by decide +kernel
  rw [parse?_eq_ok hParse, pattern_anyParsed]

/-- The loop goes on to the end of the text. -/
theorem matchThen_anyParsed (before : Option Char) (index : Nat) (t : Text) (slots : Slots) :
    anyParsed.expr.matchThen accepted ⟨before, index, t⟩ slots =
      some (slots.setIfInBounds 1 (some (index + t.length))) := by
  show (Expr.star (.compl .empty) true).matchThen accepted _ _ = _
  induction t generalizing before index with
  | nil => rw [Expr.star_nil]; rfl
  | cons c t ih =>
    have hAny : (CharSet.compl .empty).contains c = true := rfl
    rw [Expr.star_greedy_cons, if_pos hAny, ih, Option.some_or, List.length_cons, Nat.add_assoc,
      Nat.add_comm 1]

theorem search_anyText (t : Text) :
    search anyText.machine anyText.groups t = some #[some 0, some t.length] := by
  have hProper : anyParsed.expr.isProper = true := rfl
  have hMatch (rest : Text) : anyParsed.expr.matchAt 0 ⟨none, 0, rest⟩ =
      some #[some 0, some rest.length] := by
    rw [Expr.matchAt_eq, matchThen_anyParsed, Nat.zero_add]
    rfl
  refine (Parsed.searchFrom_pattern hProper anySource none 0 t).trans ?_
  show firstFrom (anyParsed.expr.matchAt 0) none 0 t = _
  cases t with
  | nil => rw [firstFrom, hMatch]
  | cons c t => rw [firstFrom, hMatch, Option.some_or]

/-- Any text is matched as a whole, and nothing else is to be referred to. -/
theorem spans_anyText (t : Text) : Spans anyText t ⟨[], [], [some t]⟩ := by
  refine ⟨?_, rfl, rfl⟩
  rw [find?, search_anyText]
  simp [groupText, anyText]

theorem reference_anyText (whole name : Text) :
    reference anyText ⟨[], [], [some whole]⟩ name = [] ∨
      reference anyText ⟨[], [], [some whole]⟩ name = whole := by
  unfold reference
  cases referenceNumber? name with
  | none => exact .inl rfl
  | some index =>
    cases index with
    | zero => exact .inr rfl
    | succ index => exact .inl rfl

/-- The text that is matched has a character more than the template, so it does not come in
unnoticed. -/
theorem expand_anyText_ne {whole : Text} (hWhole : c ∈ whole) (hMem : c ∉ t) (hPlain : ¬Plain t) :
    expand anyText ⟨[], [], [some whole]⟩ t ≠ t :=
  expand_ne_of_not_plain
    (fun name => (reference_anyText whole name).imp_right fun h => h.symm ▸ hWhole) hMem hPlain

end AssetLoom.Pattern
