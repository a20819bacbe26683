import AssetLoom.Proofs.Location
import Mathlib.Data.List.TakeWhile

/-!
# Directories and names

A path is split in front of its last segment, slashes at its end not counted: into the directory
that it lies in and its name there, which is the last segment that is not empty
(`basename_eq_getLastD`). The directory of a bare name is `.`, or the root, and names nothing. So
the two parts name what the path names (`names_dirname_append`) and the directory starts where the
path starts (`isRooted_dirname`). Nothing else counts for the normal form, so nothing is lost by
the split (`Path.dirname_basename_split`).
-/

namespace AssetLoom.Path.Segments

variable {path front : Text}

/-! ## Slashes at the end -/

theorem exists_trimSlashes_append (path : Text) :
    ∃ n, trimSlashes path ++ List.replicate n '/' = path := by
  have hSlashes : path.reverse.takeWhile (· == '/') =
      List.replicate (path.reverse.takeWhile (· == '/')).length '/' :=
    List.eq_replicate_of_mem fun c hc => by simpa using List.mem_takeWhile_imp hc
  refine ⟨(path.reverse.takeWhile (· == '/')).length, List.reverse_injective ?_⟩
  rw [List.reverse_append, List.reverse_replicate, ← hSlashes, trimSlashes, List.reverse_reverse,
    List.takeWhile_append_dropWhile]

theorem trimSlashes_isPrefix (path : Text) : trimSlashes path <+: path := by
  obtain ⟨n, hPath⟩ := exists_trimSlashes_append path
  exact ⟨_, hPath⟩

/-- What is trimmed does not end in a slash. -/
theorem head?_reverse_trimSlashes (path : Text) : (trimSlashes path).reverse.head? ≠ some '/' := by
  intro hHead
  have hNot := List.head?_dropWhile_not (· == '/') path.reverse
  rw [trimSlashes, List.reverse_reverse] at hHead
  rw [hHead] at hNot
  simp at hNot

theorem splitOn_slashes (n : Nat) :
    (List.replicate n '/').splitOn '/' = List.replicate (n + 1) [] := by
  induction n with
  | zero => rfl
  | succ n ih =>
    rw [List.replicate_succ, List.replicate_succ, ← ih]
    exact List.splitOn_append_cons_self [] _

/-- Slashes at the end are followed by empty segments. -/
theorem splitOn_append_slashes (path : Text) (n : Nat) :
    (path ++ List.replicate n '/').splitOn '/' = path.splitOn '/' ++ List.replicate n [] := by
  cases n with
  | zero => rw [List.replicate_zero, List.replicate_zero, List.append_nil, List.append_nil]
  | succ n => rw [List.replicate_succ, List.splitOn_append_cons_self, splitOn_slashes]

/-- Where empty segments do not count, neither do slashes at the end. -/
theorem filter_splitOn_trimSlashes {p : Text → Bool} (hNil : ¬p [] = true) (path : Text) :
    ((trimSlashes path).splitOn '/').filter p = (path.splitOn '/').filter p := by
  obtain ⟨n, hPath⟩ := exists_trimSlashes_append path
  conv_rhs => rw [← hPath, splitOn_append_slashes, List.filter_append,
    List.filter_replicate_of_neg hNil, List.append_nil]

/-! ## The last segment -/

theorem append_lastPart (h : beforeLastSlash? path = some front) :
    front ++ '/' :: lastPart path = path := by
  unfold beforeLastSlash? at h
  split at h
  · cases h
  · next c rest hDrop =>
    cases h
    have hSlash : c = '/' := by
      have hHead := List.head?_dropWhile_not (· != '/') path.reverse
      rw [hDrop] at hHead
      simpa using hHead
    subst hSlash
    have hSplit := List.takeWhile_append_dropWhile (p := (· != '/')) (l := path.reverse)
    rw [hDrop] at hSplit
    refine List.reverse_injective (Eq.trans ?_ hSplit)
    simp [lastPart]

theorem lastPart_eq_self (h : beforeLastSlash? path = none) : lastPart path = path := by
  unfold beforeLastSlash? at h
  split at h
  · next hDrop =>
    have hSplit := List.takeWhile_append_dropWhile (p := (· != '/')) (l := path.reverse)
    rw [hDrop, List.append_nil] at hSplit
    rw [lastPart, hSplit, List.reverse_reverse]
  · cases h

theorem slash_notMem_lastPart (path : Text) : '/' ∉ lastPart path := by
  intro h
  rw [lastPart, List.mem_reverse] at h
  exact absurd (List.mem_takeWhile_imp h) (by decide)

/-- The last part of a path is its last segment. -/
theorem splitOn_eq_append_lastPart (path : Text) :
    path.splitOn '/' = (beforeLastSlash? path).elim [] (·.splitOn '/') ++ [lastPart path] := by
  have hLast := List.splitOn_eq_singleton (slash_notMem_lastPart path)
  cases hBefore : beforeLastSlash? path with
  | none =>
    rw [lastPart_eq_self hBefore] at hLast ⊢
    exact hLast
  | some front =>
    conv_lhs => rw [← append_lastPart hBefore, List.splitOn_append_cons_self, hLast]
    rfl

/-- A path without a name consists of slashes. -/
theorem trimSlashes_eq_nil (h : basename path = []) : trimSlashes path = [] := by
  rw [basename, lastPart, List.reverse_eq_nil_iff] at h
  cases hTrim : (trimSlashes path).reverse with
  | nil => exact List.reverse_eq_nil_iff.mp hTrim
  | cons c rest =>
    have hSlash : ¬(c != '/') = true := fun hc => by
      rw [hTrim, List.takeWhile_cons_of_pos (p := (· != '/')) hc] at h
      cases h
    obtain rfl : c = '/' := by simpa using hSlash
    exact absurd (congrArg List.head? hTrim) (head?_reverse_trimSlashes path)

theorem slash_notMem_basename (path : Text) : '/' ∉ basename path :=
  slash_notMem_lastPart _

theorem basename_sublist (path : Text) : (basename path).Sublist path := by
  have hLast : (lastPart (trimSlashes path)).reverse.Sublist (trimSlashes path).reverse := by
    rw [lastPart, List.reverse_reverse]
    exact List.takeWhile_sublist _
  exact (List.reverse_sublist.mp hLast).trans (trimSlashes_isPrefix path).sublist

/-- The name of a path is the last segment that is not empty. -/
theorem basename_eq_getLastD (path : Text) :
    basename path = ((path.splitOn '/').filter (· ≠ [])).getLastD [] := by
  rw [← filter_splitOn_trimSlashes (by simp), splitOn_eq_append_lastPart, List.filter_append,
    ← basename]
  by_cases hName : basename path = []
  · rw [trimSlashes_eq_nil hName, hName]
    rfl
  · rw [List.filter_cons_of_pos (by simpa using hName), List.filter_nil, List.getLastD_concat]

/-- A name without slashes is the last segment behind a directory. -/
theorem basename_append {name : Text} (hSlash : '/' ∉ name) (hNil : name ≠ []) (directory : Text) :
    basename (directory ++ '/' :: name) = name := by
  rw [basename_eq_getLastD, List.splitOn_append_cons_self, List.splitOn_eq_singleton hSlash,
    List.filter_append, List.filter_cons_of_pos (by simpa using hNil), List.filter_nil,
    List.getLastD_concat]

/-! ## Directories -/

/-- A directory is `.`, the root, or a front of the path. -/
theorem dirname_cases (path : Text) :
    dirname path = ['.'] ∧ isRooted path = false ∨ dirname path = ['/'] ∧ isRooted path = true ∨
      dirname path ≠ [] ∧ dirname path <+: path := by
  unfold dirname
  cases hBefore : beforeLastSlash? (trimSlashes path) with
  | none => cases hRoot : isRooted path <;> simp
  | some front =>
    obtain ⟨n, hPath⟩ := exists_trimSlashes_append path
    rw [← append_lastPart hBefore, List.append_assoc] at hPath
    cases front with
    | nil => exact .inr (.inl ⟨rfl, hPath ▸ rfl⟩)
    | cons c front => exact .inr (.inr ⟨by simp, _, hPath⟩)

theorem dirname_ne_nil (path : Text) : dirname path ≠ [] := by
  obtain ⟨hDir, -⟩ | ⟨hDir, -⟩ | ⟨hNil, -⟩ := dirname_cases path
  · simp [hDir]
  · simp [hDir]
  · exact hNil

/-- A directory starts where the path starts. -/
theorem isRooted_dirname (path : Text) : isRooted (dirname path) = isRooted path := by
  obtain ⟨hDir, hRoot⟩ | ⟨hDir, hRoot⟩ | ⟨hNil, rest, hPath⟩ := dirname_cases path
  · rw [hDir, hRoot]
    rfl
  · rw [hDir, hRoot]
    rfl
  · conv_rhs => rw [← hPath, isRooted_append hNil]

/-- A directory names what is in front of the last segment. -/
theorem names_dirname (path : Text) :
    names (dirname path) = (beforeLastSlash? (trimSlashes path)).elim [] names := by
  unfold dirname
  split
  · next hBefore => rw [hBefore]; rfl
  · next front hFront hBefore => rw [hBefore]; rfl
  · next hBefore =>
    rw [hBefore]
    split <;> rfl

theorem names_dirname_append (path : Text) :
    names (dirname path) ++ names (basename path) = names path := by
  have hTrim : names (trimSlashes path) = names path := filter_splitOn_trimSlashes (by simp) path
  rw [names_dirname, ← hTrim, basename]
  cases hBefore : beforeLastSlash? (trimSlashes path) with
  | none =>
    rw [lastPart_eq_self hBefore]
    rfl
  | some front =>
    conv_rhs => rw [← append_lastPart hBefore, names_append]
    rfl

/-! ## The directory and the name together -/

theorem isRooted_basename (path : Text) : isRooted (basename path) = false := by
  rw [isRooted, beq_eq_false_iff_ne]
  exact fun hHead => slash_notMem_basename path (List.mem_of_head? hHead)

theorem join_dirname_basename (path : Text) :
    join (dirname path) (basename path) = normalize path := by
  rw [join_eq_normalize (dirname_ne_nil path) (isRooted_basename path)]
  refine normalize_congr ?_ ?_
  · rw [isRooted_append (dirname_ne_nil path), isRooted_dirname]
  · rw [names_append, names_dirname_append]

end AssetLoom.Path.Segments

namespace AssetLoom.Path

theorem isRooted_dirname (path : String) : isRooted (dirname path) = isRooted path := by
  rw [isRooted, dirname, String.toList_ofList, Segments.isRooted_dirname, isRooted]

/-- A path is split into its directory and its name without loss: joined again, they are its normal
form. The name is the last segment that is not empty, and slashes alone have none. -/
theorem dirname_basename_split (path : String) :
    join (dirname path) (basename path) = normalize path ∧
      (basename path).toList = ((path.toList.splitOn '/').filter (· ≠ [])).getLastD [] := by
  simp only [join, dirname, basename, normalize, String.toList_ofList, String.ofList_inj]
  exact ⟨Segments.join_dirname_basename _, Segments.basename_eq_getLastD _⟩

example : dirname "/a//../" = "/a/" ∧ basename "/a//../" = ".." ∧ normalize "/a//../" = "/" := by
  decide

end AssetLoom.Path
