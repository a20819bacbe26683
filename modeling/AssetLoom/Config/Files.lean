import AssetLoom.Text.Offset
/-!
# File paths and file trees

Paths of files are taken by their text. `join` puts one path behind another and cleans nothing;
`parent?` removes the last component, whatever it is. Blank components and `.`, except in front,
are no components.

* `ancestors`: a path and its parents, the nearest first.
* `FileTree`: the files and directories that paths lead to.
-/

namespace AssetLoom.FilePath

/-- Whether a path starts at the root. -/
def isAbsolute (path : String) : Bool :=
  path.toList.head? == some '/'

/-- The path `rest` behind `base`; an absolute path stands for itself. -/
def join (base rest : String) : String :=
  if isAbsolute rest || base == "" then rest
  else if base.endsWith "/" then base ++ rest
  else base ++ "/" ++ rest

/-- A reversed path without separators and dots behind its last component. -/
def trimEnd : Text → Text
  | ['/'] => ['/']
  | '/' :: rest => trimEnd rest
  | '.' :: '/' :: rest => trimEnd ('/' :: rest)
  | path => path

/-- The parent of a reversed path: nothing for the root and for the empty path. -/
def parentReversed? (path : Text) : Option Text :=
  match trimEnd path with
  | [] | ['/'] => none
  | trimmed => some (trimEnd (trimmed.dropWhile (· ≠ '/')))

theorem length_trimEnd_le (path : Text) : (trimEnd path).length ≤ path.length := by
  fun_induction trimEnd path with
  | case1 => simp
  | case2 rest _ ih => simp; omega
  | case3 rest ih => simp at ih ⊢; omega
  | case4 => simp

theorem head?_trimEnd {path : Text} (h : trimEnd path ≠ ['/']) :
    (trimEnd path).head? ≠ some '/' := by
  fun_induction trimEnd path with
  | case1 => simp at h
  | case2 rest _ ih => exact ih h
  | case3 rest ih => exact ih h
  | case4 path h1 h2 h3 =>
    cases path with
    | nil => simp
    | cons c rest =>
      rintro hc
      simp only [List.head?_cons, Option.some.injEq] at hc
      subst hc
      exact h2 rest rfl

/-- A parent is shorter. -/
theorem length_parentReversed?_lt {path parent : Text} (h : parentReversed? path = some parent) :
    parent.length < path.length := by
  unfold parentReversed? at h
  split at h
  · simp at h
  · simp at h
  · next trimmed hnil hroot =>
    obtain rfl := Option.some.inj h
    have hle := length_trimEnd_le path
    have hhead := head?_trimEnd hroot
    cases hp : trimEnd path with
    | nil => exact absurd hp hnil
    | cons c rest =>
      have hc : c ≠ '/' := by
        rintro rfl
        rw [hp] at hhead
        exact hhead rfl
      have hdrop := (List.dropWhile_sublist (l := rest) (· ≠ '/')).length_le
      have htrim := length_trimEnd_le ((c :: rest).dropWhile (· ≠ '/'))
      simp only [List.dropWhile_cons, ne_eq, hc, not_false_eq_true, decide_true, if_true] at htrim ⊢
      rw [hp] at hle
      simp only [List.length_cons] at hle
      simp only [ne_eq] at hdrop
      omega

/-- The parent of a path. -/
def parent? (path : String) : Option String :=
  (parentReversed? path.toList.reverse).map fun parent => .ofList parent.reverse

/-- A path and its parents. -/
def ancestors (path : String) : List String :=
  match _h : parent? path with
  | some parent => path :: ancestors parent
  | none => [path]
termination_by path.toList.length
decreasing_by
  simp only [parent?, Option.map_eq_some_iff] at _h
  obtain ⟨p, hp, rfl⟩ := _h
  have := length_parentReversed?_lt hp
  simpa using this

/-- The name of the file that a path leads to, if its last component is a name. -/
def fileName? (path : String) : Option String :=
  match (trimEnd path.toList.reverse).takeWhile (· ≠ '/') with
  | [] | ['.'] | ['.', '.'] => none
  | name => some (.ofList name.reverse)

end AssetLoom.FilePath

namespace AssetLoom

/-- Files and directories below the root. Names of directories are given from the root on; the
root itself is always there. -/
structure FileTree where
  files : List (List String × ByteArray) := []
  directories : List (List String) := []

namespace FileTree

/-- The components of a path, empty ones and dots left out. -/
def components (path : String) : List String :=
  ((path.toList.splitOn '/').map String.ofList).filter fun c => c ≠ "" ∧ c ≠ "."

/-- Adds a directory and its parents. -/
def addDirectory (tree : FileTree) (path : String) : FileTree :=
  { tree with directories := components path :: tree.directories }

/-- Adds a file and its parents. -/
def addFile (tree : FileTree) (path : String) (content : ByteArray) : FileTree :=
  { tree with files := (components path, content) :: tree.files }

/-- Whether there is a directory with these components. -/
def hasDirectory (tree : FileTree) (place : List String) : Bool :=
  place.isEmpty || tree.directories.any place.isPrefixOf
    || tree.files.any fun (file, _) => place.isPrefixOf file && place != file

/-- The place that a path leads to from a place. Each component is taken within a directory. -/
def walk (tree : FileTree) : List String → List Text → Option (List String)
  | place, [] => some place
  | place, c :: rest =>
    if !tree.hasDirectory place then none
    else if c = [] ∨ c = ['.'] then walk tree place rest
    else if c = ['.', '.'] then walk tree place.dropLast rest
    else walk tree (place ++ [.ofList c]) rest

/-- The place that an absolute path leads to. -/
def locate (tree : FileTree) (path : String) : Option (List String) :=
  match path.toList with
  | '/' :: rest => tree.walk [] (rest.splitOn '/')
  | _ => none

/-- The content of the file at a path. -/
def readFile? (tree : FileTree) (path : String) : Option ByteArray :=
  (tree.locate path).bind fun place => tree.files.lookup place

/-- Whether there is a file at a path. -/
def isFile (tree : FileTree) (path : String) : Bool :=
  (tree.readFile? path).isSome

/-- Whether there is anything at a path. -/
def pathExists (tree : FileTree) (path : String) : Bool :=
  (tree.locate path).any fun place =>
    tree.hasDirectory place || (tree.files.lookup place).isSome

end FileTree

end AssetLoom
