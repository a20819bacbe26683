import AssetLoom.Proofs.Comments
import AssetLoom.Proofs.Readers

/-!
# The pattern of comments

Comments are the matches of a pattern with a lazy repetition: from an opening mark on it goes to
the first closing mark (`matches_comment`). So the first match is cut out by the first opening
mark and the first closing mark behind it (`firstFrom_comment`), and to leave out all matches is
to leave out all comments (`eraseAll_commentPattern`).
-/

namespace AssetLoom.Directive

open Pattern

/-- Two braces and a star, as little as possible, a star and two braces. -/
def commentSource : String :=
  "(?s)\\\x7b\\\x7b\\*.*?\\*\\\x7d\\\x7d"

def commentParsed : Parsed where
  expr := .seqOf (.empty :: (spelling false commentStart ++
    .star (.compl .empty) false :: spelling false commentEnd))
  groups := 0
  names := []

theorem parse_commentSource : (parse commentSource.toList).toOption = some commentParsed := by
  decide +kernel

def commentPattern : Pattern :=
  commentParsed.pattern commentSource

/-! ## One comment -/

/-- Reads up to the end of the first closing mark. -/
def throughEnd? (t : Text) : Option Text :=
  (t.dropInfix? commentEnd).map fun p => p.1 ++ commentEnd

theorem throughEnd?_append (left : Text) : throughEnd? (commentEnd ++ left) = some commentEnd := by
  rw [throughEnd?, Text.dropInfix?_append_self]
  rfl

theorem throughEnd?_cons {c : Char} {rest : Text} (h : ¬ commentEnd <+: c :: rest) :
    throughEnd? (c :: rest) = (throughEnd? rest).map (c :: ·) := by
  rw [throughEnd?, Text.dropInfix?_cons_of_not_isPrefix h, throughEnd?, Option.map_map,
    Option.map_map]
  rfl

theorem matches_throughEnd : ending.Matches
    ((Expr.star (.compl .empty) false :: spelling false commentEnd).foldr Expr.matchThen accepted)
    throughEnd? := by
  have hEnd : ∀ n ∈ commentEnd, Text.Unfolded n := by decide
  refine (matches_accepted.spelled hEnd).reluctant rfl fun c rest => ?_
  by_cases hPrefix : commentEnd <+: c :: rest
  · obtain ⟨left, hLeft⟩ := hPrefix
    rw [← hLeft, throughEnd?_append]
    rfl
  · have hStrip : stripName? (sameLetter false) commentEnd (c :: rest) = none := by
      rw [Option.eq_none_iff_forall_ne_some]
      exact fun left hLeft => hPrefix ⟨left, (stripName?_exactly_eq_some_iff.mp hLeft).symm⟩
    rw [hStrip, throughEnd?_cons hPrefix]
    rfl

/-- Reads a comment. -/
def readComment? (t : Text) : Option Text :=
  (stripName? exactly commentStart t).bind fun left => (throughEnd? left).map (commentStart ++ ·)

theorem matches_comment : ending.Matches (commentParsed.expr.matchThen accepted) readComment? := by
  have hStart : ∀ n ∈ commentStart, Text.Unfolded n := by decide
  rw [commentParsed, Expr.matchThen_seqOf, List.foldr_cons, List.foldr_append]
  refine (matches_throughEnd.spelled hStart).congr fun t => ?_
  refine Option.bind_congr fun left hLeft => ?_
  rw [stripName?_exactly_eq_some_iff.mp hLeft, List.take_left]
  rfl

/-! ## The first comment -/

/-- Without an opening mark at its front a text is not read. -/
theorem readComment?_of_not_isPrefix {t : Text} (h : ¬ commentStart <+: t) :
    readComment? t = none := by
  rw [readComment?, Option.bind_eq_none_iff]
  exact fun left hLeft => absurd ⟨left, (stripName?_exactly_eq_some_iff.mp hLeft).symm⟩ h

theorem readComment?_append (left : Text) :
    readComment? (commentStart ++ left) = (throughEnd? left).map (commentStart ++ ·) := by
  rw [readComment?, stripName?_exactly_eq_some_iff.mpr rfl, Option.bind_some]

/-- If a comment is not closed, no later one is. -/
theorem throughEnd?_eq_none_of_behind {left : Text} {p : Text × Text}
    (hNone : throughEnd? left = none)
    (h : ('{' :: '*' :: left).dropInfix? commentStart = some p) : throughEnd? p.2 = none := by
  obtain ⟨hSplit, -⟩ := Text.dropInfix?_eq_some_iff.mp h
  have hWhole : left <:+ '{' :: '*' :: left := ⟨['{', '*'], rfl⟩
  have hBehind : p.2 <:+ '{' :: '*' :: left := ⟨p.1 ++ commentStart, hSplit.symm⟩
  have hLength : p.2.length ≤ left.length := by
    have := congrArg List.length hSplit
    simp only [commentStart, List.length_append, List.length_cons, List.length_nil] at this
    omega
  have hSuffix : p.2 <:+ left := List.suffix_of_suffix_length_le hBehind hWhole hLength
  rw [throughEnd?, Option.map_eq_none_iff, Text.dropInfix?_eq_none_iff] at hNone ⊢
  exact fun hEnd => hNone (hEnd.trans hSuffix.isInfix)

/-- The first match goes from the first opening mark through the first closing mark behind it. -/
theorem firstFrom_comment (before : Option Char) (index : Nat) (t : Text) :
    firstFrom (commentParsed.expr.matchAt 0) before index t =
      (t.dropInfix? commentStart).bind fun p => (throughEnd? p.2).map fun taken =>
        #[some (index + p.1.length), some (index + p.1.length + 3 + taken.length)] := by
  induction t generalizing before index with
  | nil => rw [firstFrom, Expr.matchAt_eq, matches_comment]; rfl
  | cons c t ih =>
    rw [firstFrom, Expr.matchAt_eq, matches_comment]
    by_cases hPrefix : commentStart <+: c :: t
    · obtain ⟨left, hLeft⟩ := hPrefix
      obtain ⟨rfl, rfl⟩ := List.cons.inj hLeft
      show Option.or (Option.map _ (readComment? (commentStart ++ left))) _ =
        ((commentStart ++ left).dropInfix? commentStart).bind _
      rw [readComment?_append, Text.dropInfix?_append_self, Option.bind_some]
      cases hEnd : throughEnd? left with
      | some taken =>
        show some #[some index, some (index + (taken.length + 1 + 1 + 1))] = _
        simp [Nat.add_comm 3, Nat.add_assoc]
      | none =>
        rw [Option.map_none, Option.map_none, Option.map_none, Option.none_or, ih,
          Option.bind_eq_none_iff]
        exact fun p hStart => by rw [throughEnd?_eq_none_of_behind hEnd hStart, Option.map_none]
    · rw [readComment?_of_not_isPrefix hPrefix, Option.map_none, Option.none_or, ih,
        Text.dropInfix?_cons_of_not_isPrefix hPrefix, Option.bind_map]
      simp only [Function.comp_def, List.length_cons, Nat.add_right_comm _ 1, ← Nat.add_assoc]

/-! ## All comments -/

/-- The first match is the first comment. -/
theorem find?_commentPattern (t : Text) :
    (commentPattern.find? t).map (fun found => (found.before, found.after)) =
      (t.dropInfix? commentStart).bind fun p =>
        (p.2.dropInfix? commentEnd).map fun q => (p.1, q.2) := by
  have hSearch : search commentPattern.machine commentPattern.groups t = _ :=
    (Parsed.searchFrom_pattern rfl commentSource none 0 t).trans (firstFrom_comment none 0 t)
  simp only [Pattern.find?, hSearch, throughEnd?, Option.map_map, Option.map_bind,
    Function.comp_def, Nat.zero_add]
  refine Option.bind_congr fun ⟨kept, behind⟩ hStart => ?_
  refine Option.map_congr fun ⟨inside, left⟩ hEnd => ?_
  obtain ⟨rfl, -⟩ := Text.dropInfix?_eq_some_iff.mp hStart
  obtain ⟨rfl, -⟩ := Text.dropInfix?_eq_some_iff.mp hEnd
  have hComment : kept ++ commentStart ++ (inside ++ commentEnd ++ left) =
      kept ++ (commentStart ++ (inside ++ commentEnd)) ++ left := by
    simp
  refine Prod.ext ?_ ?_
  · simp
  · rw [hComment]
    refine List.drop_left' ?_
    show _ = kept.length + 3 + (inside ++ commentEnd).length
    simp only [commentStart, commentEnd, List.length_append, List.length_cons, List.length_nil]
    omega

theorem eraseAll_commentPattern (t : Text) :
    commentPattern.eraseAll t = (keptPieces t).flatten := by
  fun_induction keptPieces t with
  | case1 t hStart =>
    have hFind := find?_commentPattern t
    rw [hStart] at hFind
    simpa using eraseAll_of_find?_eq_none (Option.map_eq_none_iff.mp hFind)
  | case2 t kept behind hStart hEnd =>
    have hFind := find?_commentPattern t
    rw [hStart, Option.bind_some, hEnd] at hFind
    simpa using eraseAll_of_find?_eq_none (Option.map_eq_none_iff.mp hFind)
  | case3 t kept behind hStart inside left hEnd ih =>
    have hFind := find?_commentPattern t
    rw [hStart, Option.bind_some, hEnd] at hFind
    obtain ⟨found, hFound, hParts⟩ := Option.map_eq_some_iff.mp hFind
    obtain ⟨rfl, rfl⟩ := Prod.mk.inj hParts
    rw [eraseAll_of_find?_eq_some hFound, ih, List.flatten_cons]
    obtain ⟨rfl, -⟩ := Text.dropInfix?_eq_some_iff.mp hStart
    obtain ⟨rfl, -⟩ := Text.dropInfix?_eq_some_iff.mp hEnd
    simp [commentStart]
    omega

/-- Comments are left out as the pattern says, which is to go from one opening mark to the first
closing mark behind it, and all characters between comments are kept. -/
theorem stripComments_eq_scan (t : Text) :
    (∃ pattern, Pattern.parse? commentSource = .ok pattern ∧
        stripComments t = pattern.eraseAll t) ∧
      stripComments t = (keptPieces t).flatten ∧
      ∃ first others comments, keptPieces t = first :: others ∧
        comments.length = others.length ∧ (∀ comment ∈ comments, IsComment comment) ∧
        t = first ++ (List.zipWith (· ++ ·) comments others).flatten := by
  refine ⟨⟨commentPattern, parse?_eq_ok parse_commentSource, ?_⟩, stripComments_eq_flatten t,
    exists_comments t⟩
  rw [stripComments_eq_flatten, eraseAll_commentPattern]

end AssetLoom.Directive
