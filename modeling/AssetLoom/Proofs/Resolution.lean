import AssetLoom.Address
import AssetLoom.Proofs.Directory
import AssetLoom.Proofs.Mark

/-!
# What addresses name

Whether an address names a resource is read off the whole address (`IsLocal`), and which one it
names off the part in front of its query and its fragment (`file`). So neither of them can make it
name another one (`resolve_canonical`): a scheme ends before the first of them begins
(`IsLocal.append`).

* `Text.hasTemplateSyntax_eq_true_iff`, `hasScheme_eq_true_iff`, `ofText_eq_relative_iff`: the
  classes of addresses, without the search for marks.
* `splitQuery_snd_eq_some_iff`, `asksInline_eq_true_iff`: the query, and what it asks for.
-/

namespace AssetLoom

namespace Text

/-- The text holds `{{` and, behind it, `}}`. -/
def HoldsExpression (t : Text) : Prop :=
  ∃ a b c, t = a ++ ['{', '{'] ++ b ++ ['}', '}'] ++ c

theorem occurs_eq_true_iff {part t : Text} : occurs part t = true ↔ part <:+: t := by
  induction t with
  | nil => simp [occurs]
  | cons c rest ih => simp [occurs, startsWith, ih, List.infix_cons_iff]

theorem hasTemplateSyntax_eq_true_iff {t : Text} :
    hasTemplateSyntax t = true ↔ HoldsExpression t := by
  fun_induction hasTemplateSyntax t with
  | case1 rest =>
    rw [occurs_eq_true_iff]
    constructor
    · rintro ⟨b, c, h⟩
      exact ⟨[], b, c, by simp [← h]⟩
    · rintro ⟨a, b, c, h⟩
      -- The closing braces are behind some opening ones, and so behind the first ones.
      have hClose : ['}', '}'] ++ c <:+ '{' :: '{' :: rest := by
        rw [h]
        exact ⟨a ++ ['{', '{'] ++ b, by simp⟩
      have hRest : rest <:+ '{' :: '{' :: rest := ⟨['{', '{'], rfl⟩
      have hLength : (['}', '}'] ++ c).length ≤ rest.length := by
        have hAll := congrArg List.length h
        simp only [List.length_append, List.length_cons, List.length_nil] at hAll ⊢
        omega
      have hBehind := List.suffix_of_suffix_length_le hClose hRest hLength
      exact (List.prefix_append ..).isInfix.trans hBehind.isInfix
  | case2 first rest hOpen ih =>
    rw [ih]
    constructor
    · rintro ⟨a, b, c, rfl⟩
      exact ⟨first :: a, b, c, by simp⟩
    · rintro ⟨a, b, c, h⟩
      cases a with
      | nil =>
        injection h with hFirst hRest
        exact absurd hRest (hOpen _ hFirst)
      | cons first' a =>
        injection h with hFirst hRest
        exact ⟨a, b, c, hRest⟩
  | case3 => simp [HoldsExpression]

end Text

namespace Address

open Path.Segments (isRooted walk walk_join join_eq_normalize normalize_join)

/-- The address starts with a scheme and a colon. -/
def WritesScheme (address : Text) : Prop :=
  ∃ scheme rest, address = scheme ++ ':' :: rest ∧ scheme ≠ [] ∧
    ∀ c ∈ scheme, isSchemeChar c = true

theorem hasScheme_eq_true_iff {address : Text} :
    hasScheme address = true ↔ WritesScheme address := by
  constructor
  · intro h
    unfold hasScheme at h
    split at h
    · next rest hDrop =>
      have hSplit := List.takeWhile_append_dropWhile (p := isSchemeChar) (l := address)
      rw [hDrop] at hSplit
      refine ⟨address.takeWhile isSchemeChar, rest, hSplit.symm, ?_,
        fun c hc => List.mem_takeWhile_imp hc⟩
      intro hNil
      rw [← hSplit, hNil] at h
      simp at h
    · cases h
  · rintro ⟨scheme, rest, rfl, hNil, hScheme⟩
    have hDrop : (scheme ++ ':' :: rest).dropWhile isSchemeChar = ':' :: rest := by
      rw [List.dropWhile_append_of_pos hScheme, List.dropWhile_cons_of_neg (by decide)]
    obtain ⟨c, scheme, rfl⟩ := List.exists_cons_of_ne_nil hNil
    have hFirst : c ≠ ':' := by
      rintro rfl
      exact absurd (hScheme ':' List.mem_cons_self) (by decide)
    rw [hasScheme, hDrop]
    simpa using hFirst

/-- The address is relative to where it is written: nothing in it is left to the template engine,
and it names neither a host nor a scheme nor a place from the root on. -/
structure IsLocal (address : Text) : Prop where
  fixed : ¬ Text.HoldsExpression address
  no_host : ¬ ['/', '/'] <+: address
  no_scheme : ¬ WritesScheme address
  no_slash : address.head? ≠ some '/' ∧ address.head? ≠ some '\\'

theorem isExternal_eq_true_iff {address : Text} :
    isExternal address = true ↔ ['/', '/'] <+: address ∨ WritesScheme address := by
  rw [isExternal, Bool.or_eq_true, hasScheme_eq_true_iff]
  exact or_congr_left List.isPrefixOf_iff_prefix

theorem ofText_eq_relative_iff {address : Text} :
    Class.ofText address = .relative ↔ IsLocal address := by
  unfold Class.ofText
  constructor
  · intro h
    split at h
    · cases h
    · next hFixed =>
      split at h
      · cases h
      · next hInside =>
        split at h
        · cases h
        · next hStart =>
          rw [isExternal_eq_true_iff, not_or] at hInside
          rw [Text.hasTemplateSyntax_eq_true_iff] at hFixed
          exact ⟨hFixed, hInside.1, hInside.2, not_or.mp hStart⟩
  · rintro ⟨hFixed, hHost, hScheme, hStart⟩
    rw [← Text.hasTemplateSyntax_eq_true_iff] at hFixed
    have hInside := isExternal_eq_true_iff.not.mpr (not_or.mpr ⟨hHost, hScheme⟩)
    rw [if_neg hFixed, if_neg hInside, if_neg (not_or.mpr hStart)]

/-- A query or a fragment makes no local address lead elsewhere. -/
theorem IsLocal.append {address suffix : Text} (h : IsLocal address)
    (hSuffix : suffix.head? = some '?' ∨ suffix.head? = some '#')
    (hFixed : ¬ Text.HoldsExpression (address ++ suffix)) : IsLocal (address ++ suffix) := by
  obtain ⟨c, suffix, rfl⟩ : ∃ c rest, suffix = c :: rest := by
    cases suffix with
    | nil => simp at hSuffix
    | cons c rest => exact ⟨c, rest, rfl⟩
  have hMark : c = '?' ∨ c = '#' := by simpa using hSuffix
  have hStart : (address ++ c :: suffix).head? ≠ some '/' ∧
      (address ++ c :: suffix).head? ≠ some '\\' := by
    cases address with
    | nil => rcases hMark with rfl | rfl <;> simp
    | cons first rest => exact h.no_slash
  refine ⟨hFixed, ?_, ?_, hStart⟩
  · rintro ⟨rest, hHost⟩
    exact hStart.1 (hHost ▸ rfl)
  · rintro ⟨scheme, rest, hScheme, hNil, hChars⟩
    -- The mark of a query or a fragment is not in a scheme.
    have hNot : c ∉ scheme := by
      intro hMem
      have := hChars c hMem
      rcases hMark with rfl | rfl <;> revert this <;> decide
    obtain ⟨z, hAddress, hRest⟩ := Text.append_eq_append_cons hNot hScheme.symm
    cases z with
    | nil =>
      obtain rfl := (List.cons.inj hRest).1
      simp at hMark
    | cons d z =>
      obtain ⟨rfl, -⟩ := List.cons.inj hRest
      exact h.no_scheme ⟨scheme, z, hAddress, hNil, hChars⟩

/-! ## Files and queries -/

/-- The part of an address that names a file: what is in front of the query and the fragment. -/
def file (address : Text) : Text :=
  address.takeWhile fun c => c ≠ '?' ∧ c ≠ '#'

/-- The query of an address is what follows the first `?`, up to the fragment, in which it does
not begin. -/
def HasQuery (address query : Text) : Prop :=
  ∃ front fragment, '?' ∉ front ∧ '#' ∉ front ∧ '#' ∉ query ∧
    (fragment = [] ∨ fragment.head? = some '#') ∧ address = front ++ '?' :: query ++ fragment

theorem file_append {address suffix : Text} (hQuery : '?' ∉ address) (hFragment : '#' ∉ address)
    (hSuffix : suffix.head? = some '?' ∨ suffix.head? = some '#') :
    file (address ++ suffix) = file address := by
  have hFile : ∀ c ∈ address, decide (c ≠ '?' ∧ c ≠ '#') = true := fun c hc =>
    decide_eq_true ⟨ne_of_mem_of_not_mem hc hQuery, ne_of_mem_of_not_mem hc hFragment⟩
  have hNone : suffix.takeWhile (fun c => decide (c ≠ '?' ∧ c ≠ '#')) = [] := by
    cases suffix with
    | nil => rfl
    | cons c rest =>
      apply List.takeWhile_cons_of_neg
      rcases hSuffix with h | h <;> obtain rfl := Option.some.inj h <;> decide
  rw [file, List.takeWhile_append_of_pos hFile, hNone, List.append_nil, file,
    List.takeWhile_eq_self_iff.mpr hFile]

theorem IsLocal.isRooted_file {address : Text} (h : IsLocal address) :
    isRooted (file address) = false := by
  obtain ⟨rest, hRest⟩ := List.takeWhile_prefix (fun c => c ≠ '?' ∧ c ≠ '#') (l := address)
  rw [isRooted, beq_eq_false_iff_ne]
  intro hHead
  apply h.no_slash.1
  rw [← hRest, List.head?_append, ← file, hHead]
  rfl

theorem splitQuery_fst (address : Text) : (splitQuery address).1 = file address := by
  have hFile : file address = (address.takeWhile (· ≠ '#')).takeWhile (· ≠ '?') := by
    rw [List.takeWhile_takeWhile, file]
    congr 1
    funext c
    simp
  rw [hFile]
  unfold splitQuery
  dsimp only
  split
  · next hDrop =>
    exact (List.takeWhile_eq_self_iff.mpr (List.dropWhile_eq_nil_iff.mp hDrop)).symm
  · rfl

theorem splitQuery_snd_eq_some_iff {address query : Text} :
    (splitQuery address).2 = some query ↔ HasQuery address query := by
  unfold splitQuery
  dsimp only
  constructor
  · intro h
    split at h
    · cases h
    · next found hDrop =>
      obtain rfl : found = query := Option.some.inj h
      obtain ⟨front, hFront, hWhole⟩ := Text.eq_of_dropWhile_ne hDrop
      have hNone : '#' ∉ front ++ '?' :: found := by
        intro hMem
        rw [← hWhole] at hMem
        simpa using List.mem_takeWhile_imp hMem
      have hSplit := List.takeWhile_append_dropWhile (p := (· ≠ '#')) (l := address)
      rw [hWhole] at hSplit
      exact ⟨front, address.dropWhile (· ≠ '#'), hFront, fun hMem => hNone (by simp [hMem]),
        fun hMem => hNone (by simp [hMem]), Text.head?_dropWhile_ne '#' address, hSplit.symm⟩
  · rintro ⟨front, fragment, hFront, hNone, hQuery, hFragment, rfl⟩
    have hNot : '#' ∉ front ++ '?' :: query := by simp [hNone, hQuery]
    rw [Text.takeWhile_ne_append_of_head? hNot hFragment, Text.dropWhile_ne_append hFront]

/-- The content is asked for by the key `__inline` of a pair in the query. -/
theorem asksInline_eq_true_iff {query : Text} : asksInline query = true ↔
    ∃ pair ∈ query.splitOn '&',
      Text.FormQuery.unescapeText (pair.takeWhile (· ≠ '=')) = "__inline".toList := by
  have hEmpty : Text.FormQuery.unescapeText [] ≠ inlineKey.toList := by
    have hNil : Text.FormQuery.unescapeText [] = [] := by
      rw [Text.FormQuery.unescapeText, Text.decode, Text.decodeFrom]
      rfl
    rw [hNil]
    decide
  simp only [asksInline, Text.FormQuery.keys, List.any_eq_true, List.mem_map, List.mem_filter,
    decide_eq_true_eq, beq_iff_eq]
  constructor
  · rintro ⟨_, ⟨pair, ⟨hPair, -⟩, rfl⟩, hKey⟩
    exact ⟨pair, hPair, hKey⟩
  · rintro ⟨pair, hPair, hKey⟩
    refine ⟨_, ⟨pair, ⟨hPair, ?_⟩, rfl⟩, hKey⟩
    -- The key of an empty pair is empty.
    rintro rfl
    exact hEmpty hKey

/-! ## Resolution -/

theorem resolve_eq_resource_iff {address : Text} {referrer key : String} {inline : Bool} :
    resolve address referrer = .resource key inline ↔ IsLocal address ∧
      key = Path.join (Path.dirname referrer) (.ofList (file address)) ∧
      inline = (splitQuery address).2.any asksInline := by
  unfold resolve
  rw [← ofText_eq_relative_iff, ← splitQuery_fst]
  cases Class.ofText address <;> simp [eq_comm]

/-- An address names a resource exactly if it is local. The path of the resource is the normal one
to where the file part of the address leads from the directory of the referrer, so neither a query
nor a fragment changes it, and the query says whether the content is wanted. -/
theorem resolve_canonical (address : Text) (referrer : String) :
    ((∃ key inline, resolve address referrer = .resource key inline) ↔ IsLocal address) ∧
      ∀ key inline, resolve address referrer = .resource key inline →
        key = Path.normalize (Path.dirname referrer ++ "/" ++ .ofList (file address)) ∧
        (∀ here, walk here key.toList =
          walk (walk here (Path.dirname referrer).toList) (file address)) ∧
        key = Path.normalize key ∧
        (inline = true ↔ ∃ query, HasQuery address query ∧ ∃ pair ∈ query.splitOn '&',
          Text.FormQuery.unescapeText (pair.takeWhile (· ≠ '=')) = "__inline".toList) ∧
        ('?' ∉ address → '#' ∉ address → ∀ suffix : Text,
          suffix.head? = some '?' ∨ suffix.head? = some '#' →
          ¬ Text.HoldsExpression (address ++ suffix) →
          ∃ inline', resolve (address ++ suffix) referrer = .resource key inline') := by
  constructor
  · constructor
    · rintro ⟨key, inline, h⟩
      exact (resolve_eq_resource_iff.mp h).1
    · intro h
      exact ⟨_, _, resolve_eq_resource_iff.mpr ⟨h, rfl, rfl⟩⟩
  · intro key inline h
    obtain ⟨hLocal, hKey, hInline⟩ := resolve_eq_resource_iff.mp h
    have hRel := hLocal.isRooted_file
    refine ⟨?_, ?_, ?_, ?_, ?_⟩
    · have hDirectory : (Path.dirname referrer).toList ≠ [] := by
        rw [Path.dirname, String.toList_ofList]
        exact Path.Segments.dirname_ne_nil _
      have hText : (Path.dirname referrer ++ "/" ++ String.ofList (file address)).toList =
          (Path.dirname referrer).toList ++ '/' :: file address := by simp
      rw [hKey, Path.normalize, hText, Path.join, String.toList_ofList,
        join_eq_normalize hDirectory hRel]
    · intro here
      rw [hKey, Path.join, String.toList_ofList, String.toList_ofList, walk_join here _ hRel]
    · rw [hKey, Path.normalize, Path.join, String.toList_ofList, String.toList_ofList,
        normalize_join]
    · rw [hInline, Option.any_eq_true]
      simp only [splitQuery_snd_eq_some_iff, asksInline_eq_true_iff]
    · intro hQuery hFragment suffix hSuffix hFixed
      refine ⟨_, resolve_eq_resource_iff.mpr ⟨hLocal.append hSuffix hFixed, ?_, rfl⟩⟩
      rw [hKey, file_append hQuery hFragment hSuffix]

/-- The query asks for the content, with one letter of the key escaped, and holds a colon and
slashes. -/
theorem resolve_canonical_query :
    let address := "../lib/a.js".toList
    let query := "v=a:1&%5F_inline=//x".toList
    let suffix := '?' :: query ++ ['#', '{', '{']
    resolve address "page/home/index.tpl" = .resource "page/lib/a.js" false ∧
      ¬ Text.HoldsExpression (address ++ suffix) ∧
      resolve (address ++ suffix) "page/home/index.tpl" = .resource "page/lib/a.js" true := by
  intro address query suffix
  have hKey : resolve address "page/home/index.tpl" = .resource "page/lib/a.js" false := by
    decide +kernel
  have hFixed : ¬ Text.HoldsExpression (address ++ suffix) := by
    rw [← Text.hasTemplateSyntax_eq_true_iff]
    decide +kernel
  obtain ⟨-, -, -, -, hAppend⟩ := (resolve_canonical address "page/home/index.tpl").2 _ _ hKey
  obtain ⟨inline, hSame⟩ := hAppend (by decide) (by decide) suffix (.inl rfl) hFixed
  obtain ⟨-, -, -, hInline, -⟩ := (resolve_canonical (address ++ suffix) _).2 _ _ hSame
  have hAsks : inline = true := by
    refine hInline.mpr ⟨query, ?_, "%5F_inline=//x".toList, by decide, by decide +kernel⟩
    exact ⟨address, ['#', '{', '{'], by decide, by decide, by decide, .inr rfl, rfl⟩
  rw [hSame, hAsks]
  exact ⟨hKey, hFixed, rfl⟩

end Address

end AssetLoom
