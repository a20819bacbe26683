import AssetLoom.Compiler.Plan
import AssetLoom.Proofs.Location

/-!
# Addresses that say where they start

The second pass writes addresses that are meant to say by themselves from where they lead: from a
directory, by a dot or a step up in front, or from the root. They all begin with a dot or a slash,
but that is not quite enough. A name may begin with a dot as well, and a path without a root gets a
slash in front when the other one has a root, whatever its first segment is
(`explicit_address_iff`).

* `IsDotted`: the first segment is a dot or a step up.
* `IsExplicit`: dotted, or a normal path from the root.
-/

namespace AssetLoom.Path.Segments

variable {path start target : Text} {segments : List Text}

/-- The first segment of a path is a dot or a step up. -/
def IsDotted (path : Text) : Prop :=
  (path.splitOn '/').head? = some ['.'] ∨ (path.splitOn '/').head? = some up

/-- A path that starts with a dot or a step up, or a normal path from the root. -/
def IsExplicit (path : Text) : Prop :=
  IsDotted path ∨ isRooted path = true ∧ normalize path = path

instance (path : Text) : Decidable (IsDotted path) :=
  inferInstanceAs (Decidable (_ ∨ _))

instance (path : Text) : Decidable (IsExplicit path) :=
  inferInstanceAs (Decidable (_ ∨ _))

/-- The target is below the directory `start`, and the way down to it begins with a name that
begins with a dot. -/
structure BelowHidden (start target : Text) : Prop where
  same_root : isRooted start = isRooted target
  down : ∃ name rest, place target = place start ++ name :: rest ∧ name.head? = some '.' ∧ name ≠ up

/-- The target is not rooted and does not lead down from where it is walked, but the directory
`start` is rooted. -/
structure OutsideRoot (start target : Text) : Prop where
  start_rooted : isRooted start = true
  target_not_rooted : isRooted target = false
  dotted : IsDotted (normalize target)

/-! ## First segments -/

theorem isDotted_dot_slash (path : Text) : IsDotted ('.' :: '/' :: path) := by
  have hSplit : ('.' :: '/' :: path).splitOn '/' = ['.'] :: path.splitOn '/' :=
    List.splitOn_append_cons_self ['.'] path
  rw [IsDotted, hSplit]
  exact .inl rfl

theorem not_isDotted_of_isRooted (h : isRooted path = true) : ¬IsDotted path := by
  obtain ⟨rest, rfl⟩ := exists_cons_of_isRooted h
  have hSplit : ('/' :: rest).splitOn '/' = [] :: rest.splitOn '/' :=
    List.splitOn_append_cons_self [] rest
  rw [IsDotted, hSplit]
  simp

theorem isDotted_intercalate_iff {first : Text} {rest : List Text}
    (hSlash : ∀ segment ∈ first :: rest, '/' ∉ segment) :
    IsDotted (['/'].intercalate (first :: rest)) ↔ first = ['.'] ∨ first = up := by
  rw [IsDotted, List.splitOn_intercalate '/' hSlash (by simp)]
  simp

/-! ## Relative paths -/

/-- A path without a root gets one by a slash in front, but stays normal only if it leads down. -/
theorem normalize_slash_iff (hRoot : isRooted target = false) :
    normalize ('/' :: normalize target) = '/' :: normalize target ↔
      ¬IsDotted (normalize target) := by
  have hSettled := settled_place target
  rw [normalize_eq_self_iff]
  constructor
  · intro hNormal hDotted
    have hParts : parts ('/' :: normalize target) = (normalize target).splitOn '/' := rfl
    rcases hDotted with hHead | hHead
    · have hMem : ['.'] ∈ parts ('/' :: normalize target) := hParts ▸ List.mem_of_head? hHead
      have hText : normalize target ≠ [] := by
        intro hNil
        simp [hNil] at hHead
      exact (hNormal.not_idle (by simpa using hText) (by simp) _ hMem).2 rfl
    · obtain ⟨ups, downs, hEq, hUp, hUps⟩ := hNormal.ups_first
      rw [hParts, hUps rfl, List.replicate_zero, List.nil_append] at hEq
      exact hUp (hEq ▸ List.mem_of_head? hHead)
  · intro hDown
    rw [normalize_eq, hRoot, render, if_neg (by decide)] at hDown ⊢
    rw [hRoot] at hSettled
    split at hDown
    · exact absurd (.inl rfl) hDown
    · next hNil =>
      rw [if_neg hNil]
      obtain ⟨ups, downs, hEq, -, hDowns⟩ := hSettled
      cases ups with
      | zero =>
        have hRooted : Settled true (place target) := ⟨0, downs, hEq, fun _ => rfl, hDowns⟩
        exact isNormal_render hRooted
      | succ ups =>
        have hSlash := (settled_place target).slash_notMem
        rw [hEq, List.replicate_succ, List.cons_append] at hDown hSlash
        exact absurd ((isDotted_intercalate_iff hSlash).mpr (.inr rfl)) hDown

theorem relative_of_ne (hRoot : isRooted start ≠ isRooted target) : relative start target =
    if isRooted target then normalize target else '/' :: normalize target := by
  simp only [relative, isRooted_normalize, ne_eq, hRoot, not_false_eq_true, if_true]

/-- A relative path that begins with a dot, but not with a dot or a step up as a segment, leads
down by a name that begins with a dot. -/
theorem belowHidden_iff (hRoot : isRooted start = isRooted target) : BelowHidden start target ↔
    (relative start target).head? = some '.' ∧ ¬IsDotted (relative start target) := by
  have hSegments := slash_notMem_relative start target
  obtain ⟨front, hStart, hTarget⟩ := exists_append_dropCommon (place start) (place target)
  rw [relative_eq hRoot]
  constructor
  · rintro ⟨-, name, rest, hPlace, hDot, hUp⟩
    have hDrop : dropCommon (place start) (place target) = ([], name :: rest) := by
      rw [hPlace]
      simpa [dropCommon] using dropCommon_append (place start) [] (name :: rest)
    have hIdle := (settled_place target).not_idle name (by simp [hPlace])
    rw [hDrop] at hSegments ⊢
    refine ⟨(head?_intercalate rest hIdle.1).trans hDot, fun hDotted => ?_⟩
    rcases (isDotted_intercalate_iff fun s hs => (hSegments s hs).1).mp hDotted with h | h
    · exact hIdle.2 h
    · exact hUp h
  · generalize dropCommon (place start) (place target) = left at hSegments hStart hTarget ⊢
    obtain ⟨back, onward⟩ := left
    rintro ⟨hDot, hNot⟩
    cases back with
    | cons last back =>
      refine absurd ((isDotted_intercalate_iff fun s hs => (hSegments s ?_).1).mpr (.inr rfl)) hNot
      exact hs
    | nil =>
      cases onward with
      | nil => simp at hDot
      | cons name rest =>
        have hFirst := hSegments name (by simp)
        refine ⟨hRoot, name, rest, ?_, (head?_intercalate rest hFirst.2).symm.trans hDot, ?_⟩
        · rw [hTarget, hStart, List.append_nil]
        · rintro rfl
          exact hNot ((isDotted_intercalate_iff fun s hs => (hSegments s hs).1).mpr (.inr rfl))

end AssetLoom.Path.Segments

namespace AssetLoom

open Path.Segments

/-! ## What is put in front -/

/-- Only a path that begins with neither a dot nor a slash is changed. -/
theorem toList_dotted_eq (path : String) : (dotted path).toList =
    if path.toList.head? = some '.' ∨ path.toList.head? = some '/' then path.toList
    else '.' :: '/' :: path.toList := by
  have hStarts : ∀ c : Char, path.startsWith (String.ofList [c]) = true ↔
      path.toList.head? = some c := fun c => by
    rw [String.startsWith_string_iff, String.toList_ofList,
      List.singleton_prefix_iff_head?_eq_some]
  have hDot : path.startsWith "." = true ↔ path.toList.head? = some '.' := hStarts '.'
  have hSlash : path.startsWith "/" = true ↔ path.toList.head? = some '/' := hStarts '/'
  simp only [dotted, Bool.or_eq_true, hDot, hSlash]
  split
  · rfl
  · rw [String.toList_append]
    rfl

theorem head?_dotted (path : String) :
    (dotted path).toList.head? = some '.' ∨ (dotted path).toList.head? = some '/' := by
  rw [toList_dotted_eq]
  split
  · assumption
  · exact .inl rfl

theorem isExplicit_dotted_iff {path : String} (hRoot : Path.isRooted path = false) :
    IsExplicit (dotted path).toList ↔ (path.toList.head? = some '.' → IsDotted path.toList) := by
  have hSlash : path.toList.head? ≠ some '/' := by simpa [Path.isRooted, isRooted] using hRoot
  rw [toList_dotted_eq]
  by_cases hDot : path.toList.head? = some '.'
  · rw [if_pos (.inl hDot), IsExplicit]
    simp [hDot, isRooted]
  · rw [if_neg (not_or.mpr ⟨hDot, hSlash⟩)]
    exact ⟨fun _ h => absurd h hDot, fun _ => .inl (isDotted_dot_slash _)⟩

/-- Between two paths from the same start the address is a relative path. -/
theorem isExplicit_of_eq {start target : Text} (hRoot : isRooted start = isRooted target) :
    IsExplicit (dotted (.ofList (relative start target))).toList ↔ ¬BelowHidden start target := by
  have hPath : Path.isRooted (.ofList (relative start target)) = false := by
    rw [Path.isRooted, String.toList_ofList, isRooted_relative hRoot]
  rw [isExplicit_dotted_iff hPath, String.toList_ofList, belowHidden_iff hRoot, not_and, not_not]

/-- Between a rooted path and another one the address is the target from the root. -/
theorem isExplicit_of_ne {start target : Text} (hRoot : isRooted start ≠ isRooted target) :
    IsExplicit (dotted (.ofList (relative start target))).toList ↔ ¬OutsideRoot start target := by
  have hSlash : (relative start target).head? = some '/' := by
    rw [relative_of_ne hRoot]
    split
    · next h => simpa [isRooted] using (isRooted_normalize target).trans h
    · rfl
  have hRooted : isRooted (relative start target) = true := by simp [isRooted, hSlash]
  rw [toList_dotted_eq, String.toList_ofList, if_pos (.inr hSlash), IsExplicit,
    or_iff_right (not_isDotted_of_isRooted hRooted), and_iff_right hRooted, relative_of_ne hRoot]
  cases hTarget : isRooted target with
  | true =>
    have hInside : ¬OutsideRoot start target := fun h => by simp [h.target_not_rooted] at hTarget
    simp only [if_true, normalize_normalize, hInside, not_false_eq_true]
  | false =>
    have hStart : isRooted start = true := by
      rw [hTarget] at hRoot
      simpa using hRoot
    have hOutside : OutsideRoot start target ↔ IsDotted (normalize target) :=
      ⟨fun h => h.dotted, fun h => ⟨hStart, hTarget, h⟩⟩
    rw [if_neg (by decide), normalize_slash_iff hTarget, hOutside]

/-- An address begins with a dot or a slash. It says where it starts, by a dot or a step up as its
first segment or as a normal path from the root, exactly if the way down to the target does not
begin with a hidden name, and the target does not lead out of the root of the other path. -/
theorem explicit_address_iff (own target : String) :
    ((dotted (Path.relative (Path.dirname own) target)).toList.head? = some '.' ∨
      (dotted (Path.relative (Path.dirname own) target)).toList.head? = some '/') ∧
      (IsExplicit (dotted (Path.relative (Path.dirname own) target)).toList ↔
        ¬BelowHidden (dirname own.toList) target.toList ∧
          ¬OutsideRoot (dirname own.toList) target.toList) := by
  have hStart : (Path.dirname own).toList = dirname own.toList := String.toList_ofList
  constructor
  · exact head?_dotted _
  · rw [← hStart]
    by_cases hRoot : isRooted (Path.dirname own).toList = isRooted target.toList
    · have hInside : ¬OutsideRoot (Path.dirname own).toList target.toList := fun h => by
        simp [h.start_rooted, h.target_not_rooted] at hRoot
      exact (isExplicit_of_eq hRoot).trans (and_iff_left hInside).symm
    · have hBeside : ¬BelowHidden (Path.dirname own).toList target.toList :=
        fun h => hRoot h.same_root
      exact (isExplicit_of_ne hRoot).trans (and_iff_right hBeside).symm

/-- A hidden directory beside the template, and a target above a template at the root. -/
theorem address_not_explicit :
    ¬IsExplicit (dotted (Path.relative (Path.dirname "a.tpl") ".b/c.tpl")).toList ∧
      ¬IsExplicit (dotted (Path.relative (Path.dirname "/a.tpl") "../c.tpl")).toList := by
  decide +kernel

end AssetLoom
