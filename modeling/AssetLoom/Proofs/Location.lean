import AssetLoom.Proofs.Normal

/-!
# Where paths lead

A path is walked from a directory, one segment after the other, and stays at the root where it
would go up from there (`walk`). Two paths have the same normal form exactly if they lead to the
same place from every directory (`normalize_eq_iff`), so a normal path stands for all that lead
where it does.

* `IsNormal`: no segment is in vain. These are the paths that are their own normal form
  (`normalize_eq_self_iff`).
* `walk_join`: to walk a joined path is to walk the directory and then the rest.
* `Path.join_composes`: so it does not matter which of three paths are joined first.
* `Path.join_relative_eq_iff`: when the relative path of a target leads to it.
-/

namespace AssetLoom.Path.Segments

variable {rooted : Bool} {here reached segments : List Text} {path segment : Text}

/-! ## Normal paths -/

/-- The segments of a path, without the slash at the front of a rooted one. -/
def parts (path : Text) : List Text :=
  (if isRooted path then path.tail else path).splitOn '/'

/-- A path in which no segment is in vain. -/
structure IsNormal (path : Text) : Prop where
  ne_nil : path ≠ []
  /-- No segment is empty or a dot, except in the paths to the root and to where one stands. -/
  not_idle : path ≠ ['/'] → path ≠ ['.'] → ∀ segment ∈ parts path, segment ≠ [] ∧ segment ≠ ['.']
  /-- Steps up come first, and not from the root. -/
  ups_first : ∃ ups downs, parts path = List.replicate ups up ++ downs ∧ up ∉ downs ∧
    (isRooted path = true → ups = 0)

theorem exists_cons_of_isRooted (h : isRooted path = true) : ∃ rest, path = '/' :: rest := by
  cases path with
  | nil => cases h
  | cons first rest =>
    obtain rfl : first = '/' := by simpa [isRooted] using h
    exact ⟨rest, rfl⟩

theorem splitOn_eq_parts (path : Text) :
    path.splitOn '/' = if isRooted path then [] :: parts path else parts path := by
  unfold parts
  split
  · next hRoot =>
    obtain ⟨rest, rfl⟩ := exists_cons_of_isRooted hRoot
    exact List.splitOn_append_cons_self [] rest
  · rfl

theorem foldl_step_parts (rooted : Bool) (path : Text) (reached : List Text) :
    (path.splitOn '/').foldl (step rooted) reached = (parts path).foldl (step rooted) reached := by
  rw [splitOn_eq_parts]
  split
  · rw [List.foldl_cons, step_of_idle (.inl rfl)]
  · rfl

theorem parts_render (h : Settled rooted segments) (hNil : segments ≠ []) :
    parts (render rooted segments) = segments := by
  rw [parts, isRooted_render h]
  cases rooted with
  | true => exact List.splitOn_intercalate '/' h.slash_notMem hNil
  | false =>
    rw [if_neg (by decide), render, if_neg (by decide), if_neg hNil]
    exact List.splitOn_intercalate '/' h.slash_notMem hNil

theorem isNormal_root : IsNormal ['/'] :=
  ⟨by decide, fun h => absurd rfl h, 0, [[]], by decide⟩

theorem isNormal_dot : IsNormal ['.'] :=
  ⟨by decide, fun _ h => absurd rfl h, 0, [['.']], by decide⟩

/-- The text of settled segments is normal. -/
theorem isNormal_render (h : Settled rooted segments) : IsNormal (render rooted segments) := by
  by_cases hNil : segments = []
  · subst hNil
    cases rooted with
    | true => exact isNormal_root
    | false => exact isNormal_dot
  · have hParts := parts_render h hNil
    refine ⟨?_, ?_, ?_⟩
    · intro hText
      rw [hText] at hParts
      exact (h.not_idle [] (hParts ▸ List.mem_singleton_self [])).1 rfl
    · rw [hParts]
      exact fun _ _ => h.not_idle
    · rw [hParts, isRooted_render h]
      obtain ⟨ups, downs, hEq, hRoot, hDowns⟩ := h
      exact ⟨ups, downs, hEq, fun hUp => (hDowns up hUp).ne_up rfl, hRoot⟩

/-- The segments of a normal path are settled. -/
theorem IsNormal.settled_parts (h : IsNormal path) (hRoot : path ≠ ['/']) (hDot : path ≠ ['.']) :
    Settled (isRooted path) (parts path) := by
  obtain ⟨ups, downs, hEq, hUp, hUps⟩ := h.ups_first
  refine ⟨ups, downs, hEq, hUps, fun segment hMem => ?_⟩
  have hPart : segment ∈ parts path := by
    rw [hEq]
    exact List.mem_append_right _ hMem
  have hIdle := h.not_idle hRoot hDot segment hPart
  refine ⟨hIdle.1, hIdle.2, ?_, fun hSlash => (mem_of_mem_splitOn hPart hSlash).2 rfl⟩
  rintro rfl
  exact hUp hMem

/-- The normal paths are those that are their own normal form. -/
theorem normalize_eq_self_iff : normalize path = path ↔ IsNormal path := by
  constructor
  · intro h
    rw [← h]
    exact isNormal_render (settled_place path)
  · intro h
    by_cases hRoot : path = ['/']
    · subst hRoot
      rfl
    by_cases hDot : path = ['.']
    · subst hDot
      rfl
    have hSettled := h.settled_parts hRoot hDot
    have hPlace : place path = parts path := by
      rw [place, settle, foldl_step_parts, hSettled.foldl_step, List.reverse_reverse]
    have hNil : parts path ≠ [] := List.splitOn_ne_nil '/' _
    rw [normalize_eq, hPlace, render, if_neg hNil]
    cases hStart : isRooted path with
    | true =>
      obtain ⟨rest, rfl⟩ := exists_cons_of_isRooted hStart
      rw [if_pos rfl]
      exact congrArg ('/' :: ·) (List.intercalate_splitOn '/')
    | false =>
      rw [if_neg (by decide), parts, hStart]
      exact List.intercalate_splitOn '/'

theorem normalize_normalize (path : Text) : normalize (normalize path) = normalize path :=
  normalize_eq_self_iff.mpr (isNormal_render (settled_place path))

/-! ## Walks -/

/-- Where one segment leads from a directory, which is given by the names on the way to it from
the root. There is nothing above the root. -/
def enter (here : List Text) (segment : Text) : List Text :=
  if segment = [] ∨ segment = ['.'] then here
  else if segment = up then here.dropLast
  else here ++ [segment]

/-- Where a path leads from a directory. A rooted path is walked from the root. -/
def walk (here : List Text) (path : Text) : List Text :=
  (path.splitOn '/').foldl enter (if isRooted path then [] else here)

theorem enter_of_names (h : Names segment) : enter here segment = here ++ [segment] := by
  rw [enter, if_neg (not_or.mpr ⟨h.ne_nil, h.ne_dot⟩), if_neg h.ne_up]

theorem foldl_enter_downs (h : ∀ segment ∈ segments, Names segment) :
    segments.foldl enter here = here ++ segments := by
  induction segments generalizing here with
  | nil => simp
  | cons first rest ih =>
    obtain ⟨hFirst, hRest⟩ := List.forall_mem_cons.mp h
    rw [List.foldl_cons, enter_of_names hFirst, ih hRest, List.append_assoc, List.singleton_append]

theorem foldl_enter_ups (n : Nat) (here : List Text) :
    (List.replicate n up).foldl enter here = here.take (here.length - n) := by
  induction n generalizing here with
  | zero => simp
  | succ n ih =>
    have hEnter : enter here up = here.dropLast := rfl
    rw [List.replicate_succ, List.foldl_cons, hEnter, ih, List.length_dropLast,
      List.dropLast_eq_take, List.take_take]
    congr 1
    omega

theorem foldl_enter_reverse_cons (segment : Text) (reached here : List Text) :
    (segment :: reached).reverse.foldl enter here =
      enter (reached.reverse.foldl enter here) segment := by
  rw [List.reverse_cons, List.foldl_append, List.foldl_cons, List.foldl_nil]

/-- A step keeps where the segments reached so far lead. -/
theorem foldl_enter_step (h : Settled rooted reached.reverse) (hHere : rooted = true → here = []) :
    (step rooted reached segment).reverse.foldl enter here =
      enter (reached.reverse.foldl enter here) segment := by
  by_cases hIdle : segment = [] ∨ segment = ['.']
  · rw [step_of_idle hIdle, enter, if_pos hIdle]
  by_cases hUp : segment = up
  · subst hUp
    cases reached with
    | nil =>
      rw [step_up_nil]
      cases rooted with
      | true =>
        obtain rfl := hHere rfl
        rfl
      | false => rfl
    | cons last before =>
      rw [step_up_cons]
      split
      · next hLast =>
        -- The step takes back the last one, which was a step down.
        have hDown := h.not_idle last (by simp)
        have hEnter : ∀ place, enter place last = place ++ [last] := fun place => by
          rw [enter, if_neg (not_or.mpr hDown), if_neg hLast]
        have hBack : ∀ place, enter place up = place.dropLast := fun _ => rfl
        rw [foldl_enter_reverse_cons, hEnter, hBack, List.dropLast_concat]
      · next hLast =>
        cases rooted with
        | true =>
          -- No step up is left in a walk from the root.
          obtain ⟨ups, downs, hEq, hRoot, hDowns⟩ := h
          rw [hRoot rfl, List.replicate_zero, List.nil_append] at hEq
          exact absurd (not_not.mp hLast) (hDowns last (by simp [← hEq])).ne_up
        | false => exact foldl_enter_reverse_cons up (last :: before) here
  · rw [step.eq_def, if_neg hIdle, if_neg hUp, foldl_enter_reverse_cons]

theorem foldl_enter_foldl_step (h : Settled rooted reached.reverse)
    (hHere : rooted = true → here = []) (hSlash : ∀ segment ∈ segments, '/' ∉ segment) :
    (segments.foldl (step rooted) reached).reverse.foldl enter here =
      segments.foldl enter (reached.reverse.foldl enter here) := by
  induction segments generalizing reached with
  | nil => rfl
  | cons first rest ih =>
    obtain ⟨hFirst, hRest⟩ := List.forall_mem_cons.mp hSlash
    rw [List.foldl_cons, ih (h.step hFirst) hRest, foldl_enter_step h hHere, List.foldl_cons]

/-- A path leads where its place is. -/
theorem walk_eq (here : List Text) (path : Text) :
    walk here path = (place path).foldl enter (if isRooted path then [] else here) := by
  have hSlash : ∀ segment ∈ path.splitOn '/', '/' ∉ segment :=
    fun _ hMem h => (mem_of_mem_splitOn hMem h).2 rfl
  rw [place, settle,
    foldl_enter_foldl_step (Settled.nil (isRooted path)) (fun h => if_pos h) hSlash]
  rfl

/-- A path leads to the same place in its normal form. -/
theorem walk_normalize (here : List Text) (path : Text) :
    walk here (normalize path) = walk here path := by
  have hPlace : place (normalize path) = place path := by
    rw [← names_normalize, normalize_normalize, names_normalize]
  rw [walk_eq, walk_eq, isRooted_normalize, hPlace]

theorem walk_append {base rel : Text} (here : List Text) (hBase : base ≠ [])
    (hRel : isRooted rel = false) :
    walk here (base ++ '/' :: rel) = walk (walk here base) rel := by
  rw [walk, isRooted_append hBase, List.splitOn_append_cons_self, List.foldl_append]
  simp only [walk, hRel, Bool.false_eq_true, if_false]

/-- A joined path is walked by way of the directory. -/
theorem walk_join {rel : Text} (here : List Text) (base : Text) (hRel : isRooted rel = false) :
    walk here (join base rel) = walk (walk here base) rel := by
  unfold join
  split
  · next hBase =>
    have hHere : walk here base = here := by rcases hBase with rfl | rfl <;> rfl
    rw [walk_normalize, hHere]
  · next hBase => rw [walk_normalize, walk_append here (not_or.mp hBase).1 hRel]

theorem normalize_join (base rel : Text) : normalize (join base rel) = join base rel := by
  unfold join
  split <;> exact normalize_normalize _

/-- There is always another name. -/
theorem exists_names_notMem (segments : List Text) : ∃ name, Names name ∧ name ∉ segments := by
  refine ⟨List.replicate (segments.flatten.length + 1) 'a', ⟨?_, ?_, ?_, ?_⟩, fun hMem => ?_⟩
  · simp
  · simp [List.replicate_succ]
  · simp [List.replicate_succ]
  · simp [List.mem_replicate]
  · have hLength := (List.sublist_flatten_of_mem hMem).length_le
    rw [List.length_replicate] at hLength
    exact absurd hLength (Nat.not_succ_le_self _)

/-- Two paths lead to the same place from whatever directory. -/
def SameLocation (p q : Text) : Prop :=
  ∀ here : List Text, (∀ name ∈ here, Names name) → walk here p = walk here q

/-- The steps up at the front of a path are those by which one stays behind a starting point that
is far from the root. -/
theorem walk_replicate {name : Text} {ups : Nat} {downs : List Text} (k : Nat)
    (hDowns : ∀ segment ∈ downs, Names segment)
    (hPlace : place path = List.replicate ups up ++ downs) :
    walk (List.replicate k name) path =
      List.replicate (if isRooted path then 0 else k - ups) name ++ downs := by
  rw [walk_eq, hPlace, List.foldl_append, foldl_enter_ups, foldl_enter_downs hDowns]
  cases isRooted path <;> simp [List.take_replicate]

/-- Paths that lead to the same place from everywhere have the same segments. -/
theorem place_eq_of_sameLocation {p q : Text} (h : SameLocation p q) :
    isRooted p = isRooted q ∧ place p = place q := by
  obtain ⟨m, x, hP, hRootP, hX⟩ := settled_place p
  obtain ⟨n, y, hQ, hRootQ, hY⟩ := settled_place q
  -- Walked from far down a directory with a new name all the way, each path leaves so much of the
  -- way as it does not go up, and then goes down by names that are not new.
  obtain ⟨name, hName, hNew⟩ := exists_names_notMem (x ++ y)
  obtain ⟨hNewX, hNewY⟩ := not_or.mp (List.mem_append.not.mp hNew)
  have hWalk := h (List.replicate (m + n + 1) name) fun s hs => List.eq_of_mem_replicate hs ▸ hName
  rw [walk_replicate _ hX hP, walk_replicate _ hY hQ] at hWalk
  have hCount := congrArg (List.count name) hWalk
  rw [List.count_append, List.count_append, List.count_replicate_self, List.count_replicate_self,
    List.count_eq_zero.mpr hNewX, List.count_eq_zero.mpr hNewY, Nat.add_zero, Nat.add_zero] at hCount
  rw [hCount] at hWalk
  have hDowns := List.append_cancel_left hWalk
  have hSame : isRooted p = isRooted q ∧ m = n := by
    cases hP : isRooted p <;> cases hQ : isRooted q <;> rw [hP, hQ] at hCount
    case true.true => exact ⟨rfl, (hRootP hP).trans (hRootQ hQ).symm⟩
    case false.false =>
      rw [if_neg (by decide), if_neg (by decide)] at hCount
      exact ⟨rfl, by omega⟩
    case true.false =>
      rw [if_pos rfl, if_neg (by decide)] at hCount
      omega
    case false.true =>
      rw [if_neg (by decide), if_pos rfl] at hCount
      omega
  exact ⟨hSame.1, by rw [hP, hQ, hSame.2, hDowns]⟩

theorem normalize_eq_iff {p q : Text} : normalize p = normalize q ↔ SameLocation p q := by
  constructor
  · intro h here _
    rw [← walk_normalize, h, walk_normalize]
  · intro h
    obtain ⟨hRoot, hPlace⟩ := place_eq_of_sameLocation h
    rw [normalize_eq, normalize_eq, hRoot, hPlace]

/-- To join a path onto a directory is to normalize the two with a slash between them. -/
theorem join_eq_normalize {base rel : Text} (hBase : base ≠ []) (hRel : isRooted rel = false) :
    join base rel = normalize (base ++ '/' :: rel) := by
  rw [← normalize_join, normalize_eq_iff]
  intro here _
  rw [walk_join here base hRel, walk_append here hBase hRel]

/-- A joined path starts at the root exactly if the directory does. -/
theorem isRooted_join (base : Text) {rel : Text} (hRel : isRooted rel = false) :
    isRooted (join base rel) = isRooted base := by
  by_cases hBase : base = []
  · subst hBase
    exact (isRooted_normalize rel).trans hRel
  · rw [join_eq_normalize hBase hRel, isRooted_normalize, isRooted_append hBase]

/-- Joined paths are the same if they lead to the same place, as they are normal. -/
theorem join_eq_join_iff {base rel base' rel' : Text} :
    join base rel = join base' rel' ↔ SameLocation (join base rel) (join base' rel') := by
  rw [← normalize_eq_iff, normalize_join, normalize_join]

theorem join_join (base : Text) {rel rest : Text} (hRel : isRooted rel = false)
    (hRest : isRooted rest = false) : join (join base rel) rest = join base (join rel rest) := by
  have hJoin : isRooted (join rel rest) = false := (isRooted_join rel hRest).trans hRel
  refine join_eq_join_iff.mpr fun here _ => ?_
  calc walk here (join (join base rel) rest)
      = walk (walk (walk here base) rel) rest := by
        rw [walk_join here _ hRest, walk_join here base hRel]
    _ = walk here (join base (join rel rest)) := by
        rw [walk_join here base hJoin, walk_join _ rel hRest]

theorem join_normalize_base (base : Text) {rel : Text} (hRel : isRooted rel = false) :
    join (normalize base) rel = join base rel := by
  refine join_eq_join_iff.mpr fun here _ => ?_
  rw [walk_join here _ hRel, walk_join here base hRel, walk_normalize]

end AssetLoom.Path.Segments

namespace AssetLoom.Path

/-- The normal form of a path is normal, and two paths have the same one exactly if they lead to
the same place. -/
theorem normalize_canonical (p : String) :
    Segments.IsNormal (normalize p).toList ∧ isRooted (normalize p) = isRooted p ∧
      normalize (normalize p) = normalize p ∧
      ∀ q, normalize p = normalize q ↔ Segments.SameLocation p.toList q.toList := by
  simp only [normalize, isRooted, String.toList_ofList, String.ofList_inj]
  exact ⟨Segments.isNormal_render (Segments.settled_place _), Segments.isRooted_normalize _,
    Segments.normalize_normalize _, fun q => Segments.normalize_eq_iff⟩

/-- A path can be joined onto a directory in two parts, either the first one to the directory or the
two of them to each other first, and the directory may be written in any way. -/
theorem join_composes (base : String) {rel rest : String} (hRel : isRooted rel = false)
    (hRest : isRooted rest = false) :
    join (join base rel) rest = join base (join rel rest) ∧
      join base rel = join (normalize base) rel := by
  simp only [join, normalize, String.toList_ofList, String.ofList_inj]
  exact ⟨Segments.join_join _ hRel hRest, (Segments.join_normalize_base _ hRel).symm⟩

/-- The first part goes up as far as the root lets it, and the second one would go up further. -/
theorem join_composes_upward :
    isRooted "../../b" = false ∧ isRooted "c/../../../d" = false ∧
      join (join "/a/./" "../../b") "c/../../../d" = "/d" ∧
      join (normalize "/a/./") "../../b" = "/b" := by
  have hRel : isRooted "../../b" = false := by decide
  have hRest : isRooted "c/../../../d" = false := by decide
  obtain ⟨hJoin, hBase⟩ := join_composes "/a/./" hRel hRest
  exact ⟨hRel, hRest, hJoin.trans (by decide), hBase.symm.trans (by decide)⟩

/-- The relative path of a target leads from a directory to the target exactly if the directory is
not further up, and a rooted one never is. -/
theorem join_relative_eq_iff {start target : String} (hRoot : isRooted start = isRooted target) :
    (join start (relative start target) = normalize target ↔
        climbs (normalize start) ≤ climbs (normalize target)) ∧
      (isRooted start = true → climbs (normalize start) ≤ climbs (normalize target)) := by
  simp only [climbs, normalize, join, relative, String.toList_ofList, String.ofList_inj]
  refine ⟨Segments.join_relative_iff hRoot, fun h => ?_⟩
  rw [Segments.climbs_normalize_of_isRooted h]
  exact Nat.zero_le _

/-- From `../b` the way to `x` is not known; from `/../b` it is. -/
theorem join_relative_eq_iff_upward :
    isRooted "../b" = isRooted "a/../x" ∧
      join "../b" (relative "../b" "a/../x") ≠ normalize "a/../x" ∧
      isRooted "/../b" = isRooted "/a/../x" ∧
      join "/../b" (relative "/../b" "/a/../x") = normalize "/a/../x" := by
  have hUp : isRooted "../b" = isRooted "a/../x" := by decide
  have hRoot : isRooted "/../b" = isRooted "/a/../x" := by decide
  refine ⟨hUp, fun h => ?_, hRoot, ?_⟩
  · exact absurd ((join_relative_eq_iff hUp).1.mp h) (by decide)
  · obtain ⟨hIff, hAlways⟩ := join_relative_eq_iff hRoot
    exact hIff.mpr (hAlways (by decide))

end AssetLoom.Path
