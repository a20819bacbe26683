import AssetLoom.Config.Load
import AssetLoom.Proofs.Mark

/-!
# The nearest file above a directory

A configuration is looked for in a directory and then in one after the other above it. To go up is
to take the last component off a path, whatever it is (`components_of_parent?`). So the search ends
after at most as many steps as the path has components, and what it ends with is the nearest file
(`findConfigFile_nearest`).

* `components`: the components of a path.
* `above?`: the directory so many steps above a path.
* `Searched`: the search, one directory after the other.
-/

namespace AssetLoom.FilePath

variable {path parent start : String}

/-! ## Components -/

/-- The components of a path: its segments, but no empty ones, and no dots except in front. -/
def components (path : Text) : List Text :=
  match path.splitOn '/' with
  | [] => []
  | first :: rest => [first].filter (· ≠ []) ++ rest.filter fun s => s ≠ [] ∧ s ≠ ['.']

theorem components_of_notMem {path : Text} (h : '/' ∉ path) :
    components path = [path].filter (· ≠ []) := by
  rw [components, List.splitOn_eq_singleton h]
  simp

/-- The components of a reversed path, one segment at its front. -/
theorem components_reverse {last : Text} (h : '/' ∉ last) (front : Text) :
    components (last ++ '/' :: front).reverse =
      components front.reverse ++ [last.reverse].filter fun s => s ≠ [] ∧ s ≠ ['.'] := by
  have hSplit : (last ++ '/' :: front).reverse.splitOn '/' =
      front.reverse.splitOn '/' ++ [last.reverse] := by
    have hReverse : (last ++ '/' :: front).reverse = front.reverse ++ '/' :: last.reverse := by simp
    rw [hReverse, List.splitOn_append_cons_self,
      List.splitOn_eq_singleton (List.mem_reverse.not.mpr h)]
  obtain ⟨first, rest, hFront⟩ :=
    List.exists_cons_of_ne_nil (List.splitOn_ne_nil '/' front.reverse)
  simp only [components, hSplit, hFront, List.cons_append, List.filter_append, List.append_assoc]

theorem components_reverse_slash (front : Text) :
    components ('/' :: front).reverse = components front.reverse := by
  simpa using @components_reverse [] (by simp) front

/-- Separators and dots at the end of a path are no components. -/
theorem components_trimEnd (path : Text) :
    components (trimEnd path).reverse = components path.reverse := by
  fun_induction trimEnd path with
  | case1 => rfl
  | case2 rest _ ih => rw [ih, components_reverse_slash]
  | case3 rest ih =>
    have hDot := @components_reverse ['.'] (by simp) rest
    rw [ih, components_reverse_slash]
    simpa using hDot.symm
  | case4 => rfl

theorem trimEnd_ne_dot_slash (path rest : Text) : trimEnd path ≠ '.' :: '/' :: rest := by
  fun_induction trimEnd path with
  | case1 => simp
  | case2 _ _ ih => exact ih
  | case3 _ ih => exact ih
  | case4 path _ _ hDot => exact hDot rest

theorem components_of_parentReversed?_eq_none {path : Text} (h : parentReversed? path = none) :
    components path.reverse = [] := by
  rw [← components_trimEnd]
  unfold parentReversed? at h
  split at h
  · next hNil =>
    rw [hNil]
    rfl
  · next hRoot =>
    rw [hRoot]
    rfl
  · cases h

theorem components_of_parentReversed? {path parent : Text}
    (h : parentReversed? path = some parent) :
    ∃ last, components path.reverse = components parent.reverse ++ [last] := by
  unfold parentReversed? at h
  split at h
  · cases h
  · cases h
  · next hNil hRoot =>
    obtain rfl := Option.some.inj h
    rw [components_trimEnd ((trimEnd path).dropWhile (· ≠ '/')), ← components_trimEnd path]
    have hHead := head?_trimEnd hRoot
    have hDot := trimEnd_ne_dot_slash path
    generalize trimEnd path = trimmed at *
    cases hDrop : trimmed.dropWhile (· ≠ '/') with
    | nil =>
      have hSlash : '/' ∉ trimmed.reverse := fun hMem => by
        simpa using List.dropWhile_eq_nil_iff.mp hDrop _ (List.mem_reverse.mp hMem)
      refine ⟨trimmed.reverse, ?_⟩
      rw [components_of_notMem hSlash, List.filter_cons_of_pos (by simpa using hNil)]
      rfl
    | cons c front =>
      -- What precedes the separator is neither empty nor a dot, as the path is trimmed.
      obtain ⟨last, hLast, rfl⟩ := Text.eq_of_dropWhile_ne hDrop
      obtain rfl : '/' = c := by
        rw [Text.dropWhile_ne_append hLast] at hDrop
        exact (List.cons.inj hDrop).1
      have hNames : last.reverse ≠ [] ∧ last.reverse ≠ ['.'] := by
        refine ⟨fun hEmpty => ?_, fun hOnly => ?_⟩
        · obtain rfl := List.reverse_eq_nil_iff.mp hEmpty
          exact hHead rfl
        · obtain rfl : last = ['.'] := List.reverse_eq_iff.mp hOnly
          exact hDot front rfl
      refine ⟨last.reverse, ?_⟩
      rw [components_reverse hLast, components_reverse_slash,
        List.filter_cons_of_pos (by simpa using hNames)]
      rfl

/-- A parent has the components of the path but the last one, and only a path without components
has no parent. -/
theorem components_of_parent? :
    (parent? path = none → components path.toList = []) ∧
      ∀ parent, parent? path = some parent →
        ∃ last, components path.toList = components parent.toList ++ [last] := by
  constructor
  · intro h
    simpa using components_of_parentReversed?_eq_none (Option.map_eq_none_iff.mp h)
  · intro parent h
    obtain ⟨reversed, hReversed, rfl⟩ := Option.map_eq_some_iff.mp h
    simpa using components_of_parentReversed? hReversed

/-! ## Directories above a path -/

/-- The directory so many steps above a path, if there is one. -/
def above? (start : String) : Nat → Option String
  | 0 => some start
  | n + 1 => (above? start n).bind parent?

theorem above?_succ (start : String) (n : Nat) :
    above? start (n + 1) = (parent? start).bind fun parent => above? parent n := by
  induction n with
  | zero => exact (Option.bind_fun_some _).symm
  | succ n ih =>
    rw [above?, ih, Option.bind_assoc]
    rfl

/-- So many steps up take off so many components. -/
theorem components_of_above? {n : Nat} {directory : String} (h : above? start n = some directory) :
    ∃ taken, components start.toList = components directory.toList ++ taken ∧ taken.length = n := by
  induction n generalizing directory with
  | zero =>
    obtain rfl := Option.some.inj h
    exact ⟨[], by simp, rfl⟩
  | succ n ih =>
    obtain ⟨below, hBelow, hParent⟩ := Option.bind_eq_some_iff.mp h
    obtain ⟨taken, hTaken, hLength⟩ := ih hBelow
    obtain ⟨last, hLast⟩ := components_of_parent?.2 directory hParent
    exact ⟨last :: taken, by simp [hTaken, hLast], by simp [hLength]⟩

/-- There are as many directories above a path as it has components. -/
theorem above?_eq_none_iff {n : Nat} :
    above? start n = none ↔ (components start.toList).length < n := by
  induction n with
  | zero => simp [above?]
  | succ n ih =>
    cases hBelow : above? start n with
    | none =>
      have hShort := ih.mp hBelow
      rw [above?, hBelow]
      exact ⟨fun _ => Nat.lt_succ_of_lt hShort, fun _ => rfl⟩
    | some below =>
      obtain ⟨taken, hTaken, hLength⟩ := components_of_above? hBelow
      rw [above?, hBelow, Option.bind_some, hTaken, List.length_append, hLength]
      cases hParent : parent? below with
      | none => simp [components_of_parent?.1 hParent]
      | some parent =>
        obtain ⟨last, hLast⟩ := components_of_parent?.2 parent hParent
        rw [hLast, List.length_append, List.length_singleton]
        exact ⟨nofun, fun hLt => by omega⟩

/-! ## The search -/

/-- The search for a file in a directory and those above it ends after some steps up, with the path
of the file if there is one. -/
inductive Searched (isFile : String → Bool) (name : String) :
    String → Nat → Option String → Prop
  | found {here : String} : isFile (join here name) = true →
      Searched isFile name here 0 (some (join here name))
  | climb {here parent : String} {steps : Nat} {result : Option String} :
      isFile (join here name) = false → parent? here = some parent →
      Searched isFile name parent steps result → Searched isFile name here (steps + 1) result
  | missed {here : String} : isFile (join here name) = false → parent? here = none →
      Searched isFile name here 0 none

namespace Searched

variable {isFile : String → Bool} {name here : String} {steps : Nat} {result : Option String}

/-- What has been passed over is no file. The search ends where there is one or where there is
nothing above. -/
theorem passed_over (h : Searched isFile name here steps result) :
    (∀ m < steps, ∀ d, above? here m = some d → isFile (join d name) = false) ∧
      ∃ last, above? here steps = some last ∧
        (isFile (join last name) = true ∧ result = some (join last name) ∨
          isFile (join last name) = false ∧ result = none ∧ parent? last = none) := by
  induction h with
  | found hFile => exact ⟨nofun, _, rfl, .inl ⟨hFile, rfl⟩⟩
  | missed hFile hTop => exact ⟨nofun, _, rfl, .inr ⟨hFile, rfl, hTop⟩⟩
  | @climb here parent steps result hFile hParent _ ih =>
    obtain ⟨hBefore, last, hLast, hEnd⟩ := ih
    have hAbove : ∀ m, above? here (m + 1) = above? parent m := fun m => by
      rw [above?_succ, hParent, Option.bind_some]
    refine ⟨?_, last, (hAbove steps).trans hLast, hEnd⟩
    rintro (_ | m) hm d hd
    · obtain rfl := Option.some.inj hd
      exact hFile
    · exact hBefore m (Nat.lt_of_succ_lt_succ hm) d (hAbove m ▸ hd)

/-- A search without a result has looked at all directories. -/
theorem le_of_above? (h : Searched isFile name here steps none) {n : Nat} {d : String}
    (hAbove : above? here n = some d) : n ≤ steps := by
  obtain ⟨-, last, hLast, ⟨-, hResult⟩ | ⟨-, -, hTop⟩⟩ := h.passed_over
  · cases hResult
  · have hEnd : above? here (steps + 1) = none := by rw [above?, hLast, Option.bind_some, hTop]
    refine Nat.le_of_not_lt fun hLt => ?_
    have hNone := above?_eq_none_iff.mpr (Nat.lt_of_lt_of_le (above?_eq_none_iff.mp hEnd) hLt)
    rw [hNone] at hAbove
    cases hAbove

theorem eq_none_iff (h : Searched isFile name here steps result) :
    result = none ↔ ∀ n d, above? here n = some d → isFile (join d name) = false := by
  obtain ⟨hBefore, last, hLast, hEnd⟩ := h.passed_over
  constructor
  · rintro rfl n d hAbove
    rcases Nat.lt_or_eq_of_le (h.le_of_above? hAbove) with hLt | rfl
    · exact hBefore n hLt d hAbove
    · obtain rfl := Option.some.inj (hAbove.symm.trans hLast)
      rcases hEnd with ⟨-, hResult⟩ | ⟨hFile, -⟩
      · cases hResult
      · exact hFile
  · intro hNone
    rcases hEnd with ⟨hFile, -⟩ | ⟨-, hResult, -⟩
    · rw [hNone steps last hLast] at hFile
      cases hFile
    · exact hResult

theorem eq_some_iff (h : Searched isFile name here steps result) {path : String} :
    result = some path ↔ ∃ n d, above? here n = some d ∧ isFile (join d name) = true ∧
      path = join d name ∧
      ∀ m < n, ∀ e, above? here m = some e → isFile (join e name) = false := by
  obtain ⟨hBefore, last, hLast, hEnd⟩ := h.passed_over
  constructor
  · rintro rfl
    rcases hEnd with ⟨hFile, hResult⟩ | ⟨-, hResult, -⟩
    · exact ⟨steps, last, hLast, hFile, Option.some.inj hResult, hBefore⟩
    · cases hResult
  · rintro ⟨n, d, hAbove, hFile, rfl, hFirst⟩
    rcases hEnd with ⟨hFound, rfl⟩ | ⟨hMissed, rfl, -⟩
    · -- Of two directories with the file, each being the first one, neither is further up.
      obtain rfl : n = steps := by
        rcases Nat.lt_trichotomy n steps with hLt | hEq | hLt
        · rw [hBefore n hLt d hAbove] at hFile
          cases hFile
        · exact hEq
        · rw [hFirst steps hLt last hLast] at hFound
          cases hFound
      rw [Option.some.inj (hAbove.symm.trans hLast)]
    · rw [h.eq_none_iff.mp rfl n d hAbove] at hFile
      cases hFile

/-- The search has one result. -/
theorem unique (h : Searched isFile name here steps result) {steps' : Nat}
    {result' : Option String} (h' : Searched isFile name here steps' result') :
    steps' = steps ∧ result' = result := by
  induction h generalizing steps' result' with
  | found hFile => cases h' <;> simp_all
  | missed hFile hTop => cases h' <;> simp_all
  | climb hFile hParent _ ih =>
    cases h' with
    | found hFile' => simp_all
    | missed _ hTop => simp_all
    | climb _ hParent' h' =>
      obtain rfl := Option.some.inj (hParent'.symm.trans hParent)
      exact ⟨congrArg (· + 1) (ih h').1, (ih h').2⟩

end Searched

/-- To look for the first of all candidates that is a file is to search upwards. -/
theorem exists_searched (isFile : String → Bool) (name start : String) :
    ∃ steps, Searched isFile name start steps
      (((ancestors start).map (join · name)).find? isFile) := by
  fun_induction ancestors start with
  | case1 here parent hParent ih =>
    obtain ⟨steps, hSteps⟩ := ih
    rw [List.map_cons, List.find?_cons]
    cases hFile : isFile (join here name) with
    | true => exact ⟨0, .found hFile⟩
    | false => exact ⟨steps + 1, .climb hFile hParent hSteps⟩
  | case2 here hTop =>
    rw [List.map_cons, List.find?_cons]
    cases hFile : isFile (join here name) with
    | true => exact ⟨0, .found hFile⟩
    | false => exact ⟨0, .missed hFile hTop⟩

end AssetLoom.FilePath

namespace AssetLoom

open FilePath

/-- Whatever files there are, the search for one with a relative name ends after at most as many
steps up as the start has components. It finds the first file among those in the start and in the
directories above it, each of which has one component less than the one before, and it finds none
exactly if there is none in any of them. -/
theorem findConfigFile_nearest (isFile pathExists : String → Bool) (start : String) {name : String}
    (hName : isAbsolute name = false) :
    let found := findConfigFile isFile pathExists start name
    (∃ steps ≤ (components start.toList).length, Searched isFile name start steps found ∧
      ∀ steps' found', Searched isFile name start steps' found' →
        steps' = steps ∧ found' = found) ∧
    (∀ n, above? start n = none ↔ (components start.toList).length < n) ∧
    (∀ n d, above? start n = some d → ∃ taken,
      components start.toList = components d.toList ++ taken ∧ taken.length = n) ∧
    (∀ path, found = some path ↔ ∃ n d, above? start n = some d ∧
      isFile (join d name) = true ∧ path = join d name ∧
      ∀ m < n, ∀ e, above? start m = some e → isFile (join e name) = false) ∧
    (found = none ↔ ∀ n d, above? start n = some d → isFile (join d name) = false) := by
  intro found
  obtain ⟨steps, hSearched⟩ : ∃ steps, Searched isFile name start steps found := by
    have hFound : found = ((ancestors start).map (join · name)).find? isFile := by
      simp [found, findConfigFile, hName]
    exact hFound ▸ exists_searched isFile name start
  obtain ⟨-, last, hLast, -⟩ := hSearched.passed_over
  obtain ⟨taken, hTaken, hLength⟩ := components_of_above? hLast
  refine ⟨⟨steps, ?_, hSearched, fun _ _ => hSearched.unique⟩, fun n => above?_eq_none_iff,
    fun n d => components_of_above?, fun path => hSearched.eq_some_iff, hSearched.eq_none_iff⟩
  rw [hTaken, List.length_append, hLength]
  exact Nat.le_add_left _ _

/-- The directory above `site/page/..` is `site/page`: steps up within a path are not taken. -/
theorem findConfigFile_nearest_step_up :
    let isFile := fun path => path == "site/tplc.toml" || path == "tplc.toml"
    isAbsolute "tplc.toml" = false ∧
      findConfigFile isFile isFile "site/page/.." "tplc.toml" = some "site/tplc.toml" ∧
      above? "site/page/.." 2 = some "site" ∧ above? "site/page/.." 4 = none := by
  intro isFile
  have hName : isAbsolute "tplc.toml" = false := by decide
  obtain ⟨-, hEnd, -, hFound, -⟩ := findConfigFile_nearest isFile isFile "site/page/.." hName
  have hAbove : above? "site/page/.." 2 = some "site" := by decide +kernel
  refine ⟨hName, (hFound _).mpr ⟨2, "site", hAbove, by decide +kernel, by decide +kernel, ?_⟩,
    hAbove, (hEnd 4).mpr (by decide +kernel)⟩
  intro m hm e he
  have hBelow : ∀ m < 2, ∀ e ∈ above? "site/page/.." m, isFile (join e "tplc.toml") = false := by
    decide +kernel
  exact hBelow m hm e he

end AssetLoom
