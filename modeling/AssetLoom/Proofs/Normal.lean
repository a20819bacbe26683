import AssetLoom.Path.Basic
import Mathlib.Data.List.Basic

/-!
# Normal forms of paths

A path leads to a place: the segments that are left once every step is taken (`place`). They are
settled: steps up, none of them from the root, and then steps down. The normal form of a path is
the text of its place, and nothing else is lost by it (`names_normalize`, `isRooted_normalize`).

* `join_eq`: to join a path onto a directory is to walk on from the place of the directory.
* `join_relative_iff`: the relative path of a target leads back to it exactly if it does not have to
  go up further than the target itself does.
-/

namespace AssetLoom.Path.Segments

/-- The step up. -/
abbrev up : Text := ['.', '.']

/-- The segment goes down to something. -/
structure Names (segment : Text) : Prop where
  ne_nil : segment ≠ []
  ne_dot : segment ≠ ['.']
  ne_up : segment ≠ up
  slash_notMem : '/' ∉ segment

/-- Segments in which no step is in vain: steps up, unless they start at the root, and then steps
down. -/
def Settled (rooted : Bool) (segments : List Text) : Prop :=
  ∃ ups downs, segments = List.replicate ups up ++ downs ∧ (rooted = true → ups = 0) ∧
    ∀ segment ∈ downs, Names segment

variable {rooted : Bool} {reached segments downs : List Text} {segment : Text}

/-! ## Steps -/

theorem step_of_idle (h : segment = [] ∨ segment = ['.']) :
    step rooted reached segment = reached := by
  rw [step.eq_def, if_pos h]

theorem step_of_names (h : Names segment) : step rooted reached segment = segment :: reached := by
  rw [step.eq_def, if_neg (not_or.mpr ⟨h.ne_nil, h.ne_dot⟩), if_neg h.ne_up]

theorem step_up_nil : step rooted [] up = if rooted then [] else [up] := rfl

theorem step_up_cons (last : Text) : step rooted (last :: reached) up =
    if last ≠ up then reached else if rooted then last :: reached else up :: last :: reached :=
  rfl

/-- Steps down are taken as they are. -/
theorem foldl_step_downs (h : ∀ segment ∈ downs, Names segment) :
    downs.foldl (step rooted) reached = downs.reverse ++ reached := by
  induction downs generalizing reached with
  | nil => rfl
  | cons first rest ih =>
    obtain ⟨hFirst, hRest⟩ := List.forall_mem_cons.mp h
    rw [List.foldl_cons, step_of_names hFirst, ih hRest, List.reverse_cons, List.append_assoc]
    rfl

/-- As many steps up lead back to where some steps down started. -/
theorem foldl_step_back {stack : List Text} (h : ∀ segment ∈ stack, Names segment) :
    (List.replicate stack.length up).foldl (step rooted) (stack ++ reached) = reached := by
  induction stack with
  | nil => rfl
  | cons last stack ih =>
    obtain ⟨hLast, hStack⟩ := List.forall_mem_cons.mp h
    rw [List.length_cons, List.replicate_succ, List.foldl_cons, List.cons_append, step_up_cons,
      if_pos hLast.ne_up, ih hStack]

theorem foldl_step_ups (n m : Nat) :
    (List.replicate n up).foldl (step false) (List.replicate m up) =
      List.replicate (n + m) up := by
  induction n generalizing m with
  | zero => simp
  | succ n ih =>
    have hStep : step false (List.replicate m up) up = List.replicate (m + 1) up := by
      cases m with
      | zero => exact step_up_nil
      | succ m =>
        rw [List.replicate_succ, step_up_cons, if_neg (by simp)]
        simp [List.replicate_succ]
    rw [List.replicate_succ, List.foldl_cons, hStep, ih]
    congr 1
    omega

/-! ## Settled segments -/

namespace Settled

theorem nil (rooted : Bool) : Settled rooted [] :=
  ⟨0, [], rfl, fun _ => rfl, by simp⟩

theorem slash_notMem (h : Settled rooted segments) : ∀ segment ∈ segments, '/' ∉ segment := by
  obtain ⟨ups, downs, rfl, -, hDowns⟩ := h
  intro segment hMem
  rcases List.mem_append.mp hMem with hMem | hMem
  · rw [List.eq_of_mem_replicate hMem]
    decide
  · exact (hDowns segment hMem).slash_notMem

theorem not_idle (h : Settled rooted segments) :
    ∀ segment ∈ segments, segment ≠ [] ∧ segment ≠ ['.'] := by
  obtain ⟨ups, downs, rfl, -, hDowns⟩ := h
  intro segment hMem
  rcases List.mem_append.mp hMem with hMem | hMem
  · rw [List.eq_of_mem_replicate hMem]
    decide
  · exact ⟨(hDowns segment hMem).ne_nil, (hDowns segment hMem).ne_dot⟩

theorem of_append {rest : List Text} (h : Settled rooted (segments ++ rest)) :
    Settled rooted segments := by
  obtain ⟨ups, downs, hEq, hRoot, hDowns⟩ := h
  refine ⟨min segments.length ups, downs.take (segments.length - ups), ?_, ?_, ?_⟩
  · have hTake := congrArg (List.take segments.length) hEq
    rwa [List.take_left, List.take_append, List.take_replicate, List.length_replicate] at hTake
  · intro h
    rw [hRoot h, Nat.min_zero]
  · exact fun segment hMem => hDowns segment (List.mem_of_mem_take hMem)

/-- A walk along settled segments takes all of them. -/
theorem foldl_step (h : Settled rooted segments) :
    segments.foldl (step rooted) [] = segments.reverse := by
  obtain ⟨ups, downs, rfl, hRoot, hDowns⟩ := h
  have hUps : (List.replicate ups up).foldl (step rooted) [] = List.replicate ups up := by
    cases rooted with
    | true => rw [hRoot rfl]; rfl
    | false => exact foldl_step_ups ups 0
  rw [List.foldl_append, hUps, foldl_step_downs hDowns, List.reverse_append,
    List.reverse_replicate]

/-- A walk along the rest of settled segments takes all of it. -/
theorem foldl_step_rest {rest : List Text} (h : Settled rooted (segments ++ rest)) :
    rest.foldl (step rooted) segments.reverse = (segments ++ rest).reverse := by
  rw [← h.of_append.foldl_step, ← List.foldl_append, h.foldl_step]

/-- What is settled stays so by a step. -/
theorem step (h : Settled rooted reached.reverse) (hSlash : '/' ∉ segment) :
    Settled rooted (step rooted reached segment).reverse := by
  by_cases hIdle : segment = [] ∨ segment = ['.']
  · rwa [step_of_idle hIdle]
  · obtain ⟨hNil, hDot⟩ := not_or.mp hIdle
    by_cases hUp : segment = up
    · subst hUp
      obtain ⟨ups, downs, hEq, hRoot, hDowns⟩ := h
      rcases List.eq_nil_or_concat' downs with rfl | ⟨before, last, rfl⟩
      · -- So far there are only steps up.
        have hReached : reached = List.replicate ups up := by
          rw [← List.reverse_reverse reached, hEq]
          simp
        subst hReached
        cases rooted with
        | true =>
          rw [hRoot rfl, List.replicate_zero, step_up_nil, if_pos rfl]
          exact nil true
        | false =>
          have hOne := foldl_step_ups 1 ups
          rw [List.replicate_one, List.foldl_cons, List.foldl_nil] at hOne
          exact ⟨1 + ups, [], by rw [hOne]; simp, nofun, by simp⟩
      · -- The last step was one down.
        have hReached : reached = last :: (List.replicate ups up ++ before).reverse := by
          rw [← List.reverse_reverse reached, hEq]
          simp
        have hLast : Names last := hDowns last (by simp)
        rw [hReached, step_up_cons, if_pos hLast.ne_up, List.reverse_reverse]
        exact ⟨ups, before, rfl, hRoot, fun s hs => hDowns s (by simp [hs])⟩
    · have hNames : Names segment := ⟨hNil, hDot, hUp, hSlash⟩
      obtain ⟨ups, downs, hEq, hRoot, hDowns⟩ := h
      refine ⟨ups, downs ++ [segment], ?_, hRoot, ?_⟩
      · rw [step_of_names hNames, List.reverse_cons, hEq, List.append_assoc]
      · intro s hs
        rcases List.mem_append.mp hs with hs | hs
        · exact hDowns s hs
        · exact List.mem_singleton.mp hs ▸ hNames

theorem foldl (h : Settled rooted reached.reverse) (hSlash : ∀ segment ∈ segments, '/' ∉ segment) :
    Settled rooted (segments.foldl (Segments.step rooted) reached).reverse := by
  induction segments generalizing reached with
  | nil => exact h
  | cons first rest ih =>
    obtain ⟨hFirst, hRest⟩ := List.forall_mem_cons.mp hSlash
    exact ih (h.step hFirst) hRest

end Settled

/-! ## Places -/

theorem isRooted_append {front : Text} (hFront : front ≠ []) (rest : Text) :
    isRooted (front ++ rest) = isRooted front := by
  obtain ⟨c, front, rfl⟩ := List.exists_cons_of_ne_nil hFront
  rfl

/-- The characters of a segment are those of the path, but no slashes. -/
theorem mem_of_mem_splitOn {c : Char} {path : Text} (hMem : segment ∈ path.splitOn '/')
    (h : c ∈ segment) : c ∈ path ∧ c ≠ '/' := by
  induction path generalizing segment with
  | nil => simp_all
  | cons first path ih =>
    rw [List.splitOn_cons_eq_if_modifyHead] at hMem
    obtain ⟨head, rest, hSplit⟩ := List.exists_cons_of_ne_nil (List.splitOn_ne_nil '/' path)
    rw [hSplit] at hMem ih
    split at hMem
    · rcases List.mem_cons.mp hMem with rfl | hMem
      · simp at h
      · exact (ih hMem h).imp_left (List.mem_cons_of_mem _)
    · next hFirst =>
      rcases List.mem_cons.mp hMem with rfl | hMem
      · rcases List.mem_cons.mp h with rfl | h
        · exact ⟨List.mem_cons_self, by simpa using hFirst⟩
        · exact (ih List.mem_cons_self h).imp_left (List.mem_cons_of_mem _)
      · exact (ih (List.mem_cons_of_mem _ hMem) h).imp_left (List.mem_cons_of_mem _)

/-- The place that a path leads to. -/
def place (path : Text) : List Text :=
  settle (isRooted path) (path.splitOn '/')

theorem settled_place (path : Text) : Settled (isRooted path) (place path) :=
  (Settled.nil _).foldl fun _ hMem h => (mem_of_mem_splitOn hMem h).2 rfl

theorem normalize_eq (path : Text) : normalize path = render (isRooted path) (place path) := rfl

/-- A walk along a text is one along the segments that it was put together from. -/
theorem foldl_splitOn_intercalate (hSlash : ∀ segment ∈ segments, '/' ∉ segment) :
    ((['/'].intercalate segments).splitOn '/').foldl (step rooted) reached =
      segments.foldl (step rooted) reached := by
  by_cases hNil : segments = []
  · subst hNil
    exact (step_of_idle (.inl rfl) : step rooted reached [] = reached)
  · rw [List.splitOn_intercalate '/' hSlash hNil]

theorem head?_intercalate {first : Text} (rest : List Text) (hNil : first ≠ []) :
    (['/'].intercalate (first :: rest)).head? = first.head? := by
  obtain ⟨c, first, rfl⟩ := List.exists_cons_of_ne_nil hNil
  cases rest with
  | nil => simp
  | cons second rest => simp [List.intercalate_cons_cons]

theorem head?_intercalate_ne (hSlash : ∀ segment ∈ segments, '/' ∉ segment)
    (hNil : ∀ segment ∈ segments, segment ≠ []) :
    (['/'].intercalate segments).head? ≠ some '/' := by
  cases segments with
  | nil => simp
  | cons first rest =>
    rw [head?_intercalate rest (hNil first List.mem_cons_self)]
    exact fun hHead => hSlash first List.mem_cons_self (List.mem_of_head? hHead)

theorem isRooted_render (h : Settled rooted segments) :
    isRooted (render rooted segments) = rooted := by
  cases rooted with
  | true => rfl
  | false =>
    rw [render, if_neg (by decide)]
    split
    · rfl
    · have hHead := head?_intercalate_ne h.slash_notMem fun s hs => (h.not_idle s hs).1
      simpa [isRooted] using hHead

/-- A path names what its parts on either side of a slash name. -/
theorem names_append (front back : Text) :
    names (front ++ '/' :: back) = names front ++ names back := by
  rw [names, List.splitOn_append_cons_self, List.filter_append]
  rfl

/-- The text of settled segments names just these. -/
theorem names_render (h : Settled rooted segments) : names (render rooted segments) = segments := by
  have hKeep : segments.filter (fun segment => segment ≠ [] ∧ segment ≠ ['.']) = segments :=
    List.filter_eq_self.mpr fun s hs => by simpa using h.not_idle s hs
  have hText : names (['/'].intercalate segments) = segments := by
    by_cases hNil : segments = []
    · subst hNil
      rfl
    · rw [names, List.splitOn_intercalate '/' h.slash_notMem hNil, hKeep]
  unfold render
  split
  · exact (names_append [] _).trans hText
  · split
    · next hNil =>
      subst hNil
      rfl
    · exact hText

theorem names_normalize (path : Text) : names (normalize path) = place path :=
  names_render (settled_place path)

theorem isRooted_normalize (path : Text) : isRooted (normalize path) = isRooted path :=
  isRooted_render (settled_place path)

/-- Only the segments that name something are steps of a walk. -/
theorem foldl_step_names (path : Text) :
    (names path).foldl (step rooted) reached = (path.splitOn '/').foldl (step rooted) reached := by
  unfold names
  induction path.splitOn '/' generalizing reached with
  | nil => rfl
  | cons first rest ih =>
    by_cases hIdle : first = [] ∨ first = ['.']
    · rw [List.filter_cons_of_neg (by simpa using or_iff_not_imp_left.mp hIdle), ih,
        List.foldl_cons, step_of_idle hIdle]
    · rw [List.filter_cons_of_pos (by simpa using hIdle), List.foldl_cons, List.foldl_cons, ih]

/-- A normal form depends on where a path starts and on what it names. -/
theorem normalize_congr {p q : Text} (hRoot : isRooted p = isRooted q)
    (hNames : names p = names q) :
    normalize p = normalize q := by
  have hPlace : ∀ path, place path = settle (isRooted path) (names path) := fun path => by
    rw [place, settle, settle, foldl_step_names]
  rw [normalize_eq, normalize_eq, hPlace, hPlace, hRoot, hNames]

/-! ## Steps up at the front -/

/-- The number of steps up that some segments start with. -/
def leadingUps (segments : List Text) : Nat :=
  (segments.takeWhile (· = up)).length

/-- The number of steps up that a path starts with. -/
def climbs (path : Text) : Nat :=
  leadingUps (path.splitOn '/')

theorem leadingUps_append (n : Nat) (hDowns : ∀ segment ∈ downs, Names segment) :
    leadingUps (List.replicate n up ++ downs) = n := by
  have hNone : downs.takeWhile (· = up) = [] := by
    cases downs with
    | nil => rfl
    | cons first rest =>
      exact List.takeWhile_cons_of_neg (by simpa using (hDowns first List.mem_cons_self).ne_up)
  rw [leadingUps, List.takeWhile_append_of_pos (by simp [List.mem_replicate]), hNone]
  simp

theorem climbs_normalize (path : Text) : climbs (normalize path) = leadingUps (place path) := by
  have hSettled := settled_place path
  rw [normalize_eq, climbs]
  cases hRoot : isRooted path with
  | true =>
    rw [hRoot] at hSettled
    obtain ⟨ups, downs, hEq, hUps, hDowns⟩ := hSettled
    rw [hEq, leadingUps_append ups hDowns, hUps rfl, render, if_pos rfl,
      List.splitOn_cons_eq_if_modifyHead, if_pos (beq_self_eq_true '/')]
    rfl
  | false =>
    rw [render, if_neg (by decide)]
    split
    · next hNil =>
      rw [hNil]
      rfl
    · next hNil => rw [List.splitOn_intercalate '/' hSettled.slash_notMem hNil]

/-! ## Joined paths -/

/-- To join a path onto a directory is to walk on from where the directory is. -/
theorem join_eq (base : Text) {rel : Text} (hRel : isRooted rel = false) :
    join base rel = render (isRooted base)
      ((rel.splitOn '/').foldl (step (isRooted base)) (place base).reverse).reverse := by
  unfold join
  split
  · next hBase =>
    have hHere : isRooted base = false ∧ place base = [] := by
      rcases hBase with rfl | rfl <;> exact ⟨rfl, rfl⟩
    rw [hHere.1, hHere.2, normalize, hRel]
    rfl
  · next hBase =>
    rw [normalize, isRooted_append (not_or.mp hBase).1, settle, List.splitOn_append_cons_self,
      List.foldl_append, place, settle, List.reverse_reverse]

theorem dropCommon_append (front as bs : List Text) :
    dropCommon (front ++ as) (front ++ bs) = dropCommon as bs := by
  induction front with
  | nil => rfl
  | cons first front ih => rw [List.cons_append, List.cons_append, dropCommon, if_pos rfl, ih]

/-- What is left out is the same front of both lists. -/
theorem exists_append_dropCommon (as bs : List Text) :
    ∃ front, as = front ++ (dropCommon as bs).1 ∧ bs = front ++ (dropCommon as bs).2 := by
  induction as generalizing bs with
  | nil => exact ⟨[], by simp [dropCommon], by simp [dropCommon]⟩
  | cons a as ih =>
    cases bs with
    | nil => exact ⟨[], by simp [dropCommon], by simp [dropCommon]⟩
    | cons b bs =>
      by_cases hSame : a = b
      · obtain ⟨front, hAs, hBs⟩ := ih bs
        refine ⟨a :: front, ?_, ?_⟩
        · rw [dropCommon, if_pos hSame, List.cons_append, ← hAs]
        · rw [dropCommon, if_pos hSame, List.cons_append, ← hBs, hSame]
      · exact ⟨[], by simp [dropCommon, hSame], by simp [dropCommon, hSame]⟩

theorem relative_eq {start target : Text} (hRoot : isRooted start = isRooted target) :
    relative start target = ['/'].intercalate
      (List.replicate (dropCommon (place start) (place target)).1.length up ++
        (dropCommon (place start) (place target)).2) := by
  simp only [relative, isRooted_normalize, hRoot, ne_eq, not_true, if_false, names_normalize]

/-- The segments of a relative path. -/
theorem slash_notMem_relative (start target : Text) :
    ∀ segment ∈ List.replicate (dropCommon (place start) (place target)).1.length up ++
      (dropCommon (place start) (place target)).2, '/' ∉ segment ∧ segment ≠ [] := by
  obtain ⟨front, -, hTarget⟩ := exists_append_dropCommon (place start) (place target)
  intro segment hMem
  rcases List.mem_append.mp hMem with hMem | hMem
  · rw [List.eq_of_mem_replicate hMem]
    decide
  · have hPlace : segment ∈ place target := by
      rw [hTarget]
      exact List.mem_append_right _ hMem
    exact ⟨(settled_place target).slash_notMem segment hPlace,
      ((settled_place target).not_idle segment hPlace).1⟩

theorem isRooted_relative {start target : Text} (hRoot : isRooted start = isRooted target) :
    isRooted (relative start target) = false := by
  have hSegments := slash_notMem_relative start target
  rw [relative_eq hRoot, isRooted, beq_eq_false_iff_ne]
  exact head?_intercalate_ne (fun s hs => (hSegments s hs).1) fun s hs => (hSegments s hs).2

/-- To join a relative path is to walk back to the common part and on to the target. -/
theorem join_relative_eq {start target : Text} (hRoot : isRooted start = isRooted target) :
    join start (relative start target) = render (isRooted start)
      ((List.replicate (dropCommon (place start) (place target)).1.length up ++
        (dropCommon (place start) (place target)).2).foldl (step (isRooted start))
          (place start).reverse).reverse := by
  rw [join_eq start (isRooted_relative hRoot), relative_eq hRoot,
    foldl_splitOn_intercalate fun s hs => (slash_notMem_relative start target s hs).1]

/-- The relative path of a target leads from the directory to the target, unless the directory is
further up than the target is: there is no way down from a directory whose name is not known. -/
theorem join_relative {start target : Text} (hRoot : isRooted start = isRooted target)
    (hClimbs : climbs (normalize start) ≤ climbs (normalize target)) :
    join start (relative start target) = normalize target := by
  have hTarget := settled_place target
  obtain ⟨m, x, hStart, -, hX⟩ := settled_place start
  obtain ⟨n, y, hEnd, -, hY⟩ := settled_place target
  rw [climbs_normalize, climbs_normalize, hStart, hEnd, leadingUps_append m hX,
    leadingUps_append n hY] at hClimbs
  -- The steps up that the directory starts with are common to both places.
  have hSplit : place target =
      List.replicate m up ++ (List.replicate (n - m) up ++ y) := by
    rw [hEnd, ← List.append_assoc, List.replicate_append_replicate]
    congr 2
    omega
  have hDrop : dropCommon (place start) (place target) =
      dropCommon x (List.replicate (n - m) up ++ y) := by
    rw [hStart, hSplit, dropCommon_append]
  obtain ⟨front, hLeft, hRight⟩ := exists_append_dropCommon x (List.replicate (n - m) up ++ y)
  rw [join_relative_eq hRoot, normalize_eq, hRoot, hDrop]
  generalize dropCommon x (List.replicate (n - m) up ++ y) = rest at hLeft hRight
  obtain ⟨back, onward⟩ := rest
  dsimp only at hLeft hRight ⊢
  have hBack : ∀ segment ∈ back.reverse, Names segment := by
    intro s hs
    refine hX s ?_
    rw [hLeft]
    exact List.mem_append_right _ (List.mem_reverse.mp hs)
  have hWhole : place target = (List.replicate m up ++ front) ++ onward := by
    rw [hSplit, hRight, List.append_assoc]
  have hFrom : (place start).reverse =
      back.reverse ++ (List.replicate m up ++ front).reverse := by
    rw [hStart, hLeft, ← List.append_assoc, List.reverse_append]
  rw [hWhole] at hTarget ⊢
  rw [List.foldl_append, hFrom, ← List.length_reverse, foldl_step_back hBack,
    hTarget.foldl_step_rest, List.reverse_reverse]

/-- From a directory that is further up than the target, the relative path leads even further up:
the steps up at the front of both paths are not told apart from those back to the common part. -/
theorem join_relative_of_lt {start target : Text} {m n : Nat} {x y : List Text}
    (hRoot : isRooted start = false) (hRoot' : isRooted target = false)
    (hStart : place start = List.replicate m up ++ x) (hX : ∀ segment ∈ x, Names segment)
    (hEnd : place target = List.replicate n up ++ y) (hY : ∀ segment ∈ y, Names segment)
    (hLt : n < m) :
    join start (relative start target) =
      render false (List.replicate (m - n + m) up ++ y) := by
  have hSame : isRooted start = isRooted target := hRoot.trans hRoot'.symm
  have hDrop : dropCommon (place start) (place target) = (List.replicate (m - n) up ++ x, y) := by
    have hSplit : place start = List.replicate n up ++ (List.replicate (m - n) up ++ x) := by
      rw [hStart, ← List.append_assoc, List.replicate_append_replicate]
      congr 2
      omega
    rw [hSplit, hEnd, dropCommon_append]
    obtain ⟨k, hk⟩ : ∃ k, m - n = k + 1 := ⟨m - n - 1, by omega⟩
    rw [hk, List.replicate_succ, List.cons_append]
    cases y with
    | nil => rfl
    | cons first rest => rw [dropCommon, if_neg (hY first List.mem_cons_self).ne_up.symm]
  have hBack : ∀ segment ∈ x.reverse, Names segment := fun s hs => hX s (List.mem_reverse.mp hs)
  rw [join_relative_eq hSame, hDrop, hRoot, hStart,
    List.reverse_append, List.reverse_replicate, List.length_append, List.length_replicate,
    Nat.add_comm (m - n), ← List.replicate_append_replicate, List.append_assoc, List.foldl_append,
    List.foldl_append, ← List.length_reverse, foldl_step_back hBack, foldl_step_ups,
    foldl_step_downs hY, List.reverse_append, List.reverse_reverse, List.reverse_replicate]

theorem climbs_normalize_of_isRooted {path : Text} (h : isRooted path = true) :
    climbs (normalize path) = 0 := by
  obtain ⟨n, x, hPlace, hUps, hX⟩ := settled_place path
  rw [climbs_normalize, hPlace, leadingUps_append n hX, hUps h]

theorem join_relative_iff {start target : Text} (hRoot : isRooted start = isRooted target) :
    join start (relative start target) = normalize target ↔
      climbs (normalize start) ≤ climbs (normalize target) := by
  refine ⟨fun h => Nat.le_of_not_lt fun hLt => ?_, join_relative hRoot⟩
  obtain ⟨m, x, hStart, hUps, hX⟩ := settled_place start
  obtain ⟨n, y, hEnd, -, hY⟩ := settled_place target
  have hLower : isRooted start = false := by
    cases hStart : isRooted start with
    | true => simp [climbs_normalize_of_isRooted hStart] at hLt
    | false => rfl
  rw [climbs_normalize, climbs_normalize, hStart, hEnd, leadingUps_append n hY,
    leadingUps_append m hX] at hLt
  have hFurther : Settled false (List.replicate (m - n + m) up ++ y) :=
    ⟨m - n + m, y, rfl, nofun, hY⟩
  rw [join_relative_of_lt hLower (hRoot.symm.trans hLower) hStart hX hEnd hY hLt] at h
  have hPlace := names_render hFurther
  rw [h, names_normalize, hEnd] at hPlace
  have hUps := congrArg leadingUps hPlace
  rw [leadingUps_append n hY, leadingUps_append (m - n + m) hY] at hUps
  omega

/-- A step to where one stands, at the front of a path, changes nothing. -/
theorem join_dot_slash (base : Text) {rel : Text} (hRel : isRooted rel = false) :
    join base ('.' :: '/' :: rel) = join base rel := by
  have hSplit : ('.' :: '/' :: rel).splitOn '/' = ['.'] :: rel.splitOn '/' :=
    List.splitOn_append_cons_self ['.'] rel
  rw [join_eq base rfl, join_eq base hRel, hSplit, List.foldl_cons, step_of_idle (.inr rfl)]

/-! ## Characters

A path that is made of others has their characters, dots and slashes. -/

section

variable {c : Char} {path base rel start target : Text}

theorem mem_intercalate {sep : Char} (h : c ∈ [sep].intercalate segments) :
    c = sep ∨ ∃ segment ∈ segments, c ∈ segment := by
  induction segments with
  | nil => simp at h
  | cons first rest ih =>
    cases rest with
    | nil => exact .inr ⟨first, List.mem_cons_self, by simpa using h⟩
    | cons second rest =>
      rw [List.intercalate_cons_cons, List.mem_append, List.mem_append, List.mem_singleton] at h
      rcases h with (h | h) | h
      · exact .inr ⟨first, List.mem_cons_self, h⟩
      · exact .inl h
      · rcases ih h with h | ⟨segment, hMem, h⟩
        · exact .inl h
        · exact .inr ⟨segment, List.mem_cons_of_mem _ hMem, h⟩

theorem step_subset (rooted : Bool) (reached : List Text) (segment : Text) :
    step rooted reached segment ⊆ segment :: reached := by
  rw [step.eq_def]
  split
  · exact List.subset_cons_self ..
  · split
    · cases reached with
      | nil => cases rooted <;> simp
      | cons last before =>
        dsimp only
        split
        · simp
        · split <;> simp
    · exact List.Subset.refl _

theorem foldl_step_subset (rooted : Bool) (segments reached : List Text) :
    segments.foldl (step rooted) reached ⊆ segments ++ reached := by
  induction segments generalizing reached with
  | nil => exact List.Subset.refl _
  | cons first rest ih =>
    intro s hs
    rcases List.mem_append.mp (ih _ hs) with h | h
    · simp [h]
    · rcases List.mem_cons.mp (step_subset _ _ _ h) with rfl | h
      · simp
      · simp [h]

theorem mem_of_mem_place (hMem : segment ∈ place path) (h : c ∈ segment) : c ∈ path := by
  have hSplit := foldl_step_subset _ _ _ (List.mem_reverse.mp hMem)
  rw [List.append_nil] at hSplit
  exact (mem_of_mem_splitOn hSplit h).1

variable (hDot : c ≠ '.') (hSlash : c ≠ '/')
include hDot hSlash

theorem notMem_normalize (h : c ∉ path) : c ∉ normalize path := by
  have hText : c ∉ ['/'].intercalate (place path) := by
    intro hc
    rcases mem_intercalate hc with hc | ⟨segment, hMem, hc⟩
    · exact hSlash hc
    · exact h (mem_of_mem_place hMem hc)
  rw [normalize_eq, render]
  split
  · simp [hSlash, hText]
  · split
    · simp [hDot]
    · exact hText

theorem notMem_join (hBase : c ∉ base) (hRel : c ∉ rel) : c ∉ join base rel := by
  unfold join
  split
  · exact notMem_normalize hDot hSlash hRel
  · exact notMem_normalize hDot hSlash (by simp [hBase, hSlash, hRel])

/-- The characters of a relative path are those of the target. -/
theorem notMem_relative (h : c ∉ target) : c ∉ relative start target := by
  have hNormal := notMem_normalize hDot hSlash h
  by_cases hRoot : isRooted start = isRooted target
  · obtain ⟨front, -, hTarget⟩ := exists_append_dropCommon (place start) (place target)
    rw [relative_eq hRoot]
    intro hc
    rcases mem_intercalate hc with hc | ⟨segment, hMem, hc⟩
    · exact hSlash hc
    · rcases List.mem_append.mp hMem with hMem | hMem
      · rw [List.eq_of_mem_replicate hMem] at hc
        simp [hDot] at hc
      · refine h (mem_of_mem_place ?_ hc)
        rw [hTarget]
        exact List.mem_append_right _ hMem
  · simp only [relative, isRooted_normalize, ne_eq, hRoot, not_false_eq_true, if_true]
    split
    · exact hNormal
    · simp [hSlash, hNormal]

end

end AssetLoom.Path.Segments

namespace AssetLoom.Path

/-! ## Paths as strings -/

/-- Whether a path starts at the root. -/
def isRooted (path : String) : Bool :=
  Segments.isRooted path.toList

/-- The number of steps up that a path starts with. -/
def climbs (path : String) : Nat :=
  Segments.climbs path.toList

theorem isRooted_relative {start target : String} (hRoot : isRooted start = isRooted target) :
    isRooted (relative start target) = false := by
  rw [isRooted, relative, String.toList_ofList, Segments.isRooted_relative hRoot]

theorem join_relative {start target : String} (hRoot : isRooted start = isRooted target)
    (hClimbs : climbs (normalize start) ≤ climbs (normalize target)) :
    join start (relative start target) = normalize target := by
  simp only [climbs, normalize, String.toList_ofList] at hClimbs
  rw [join, relative, String.toList_ofList, Segments.join_relative hRoot hClimbs, normalize]

end AssetLoom.Path
