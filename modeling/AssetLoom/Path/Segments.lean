import AssetLoom.Text.Offset
/-!
# Paths as segments

A path is a text whose segments are separated by slashes. Empty segments and `.` stay in place,
`..` goes up one segment. Paths are names of resources, not of files: nothing here looks at a
disk.

* `settle`: what is left of a list of segments once every step is taken.
* `normalize`: the text of the settled segments, `.` when a relative path settles to nothing.
* `relative`: the steps that lead from one path to another, from their common part on.
-/

namespace AssetLoom.Path.Segments

open AssetLoom

/-- Whether a path starts at the root. -/
def isRooted (path : Text) : Bool :=
  path.head? == some '/'

/-- The path without the slashes at its end. -/
def trimSlashes (path : Text) : Text :=
  (path.reverse.dropWhile (· == '/')).reverse

/-- What follows the last slash. -/
def lastPart (path : Text) : Text :=
  (path.reverse.takeWhile (· != '/')).reverse

/-- What precedes the last slash, if there is one. -/
def beforeLastSlash? (path : Text) : Option Text :=
  match path.reverse.dropWhile (· != '/') with
  | [] => none
  | _ :: front => some front.reverse

/-- The directory a path lies in. -/
def dirname (path : Text) : Text :=
  match beforeLastSlash? (trimSlashes path) with
  | some [] => ['/']
  | some front => front
  | none => if isRooted path then ['/'] else ['.']

/-- The last segment of a path. -/
def basename (path : Text) : Text :=
  lastPart (trimSlashes path)

/-- What follows the last dot of the last segment, unless that dot comes first or last in it. -/
def extension? (path : Text) : Option Text :=
  let name := (basename path).reverse
  match name.dropWhile (· != '.') with
  | [] | [_] => none
  | _ => match name.takeWhile (· != '.') with
    | [] => none
    | suffix => some suffix.reverse

/-- Takes one step from the segments reached so far, the last one first. -/
def step (rooted : Bool) (reached : List Text) (segment : Text) : List Text :=
  if segment = [] ∨ segment = ['.'] then reached
  else if segment = ['.', '.'] then
    match reached with
    | [] => if rooted then [] else [segment]
    | last :: before =>
      if last ≠ ['.', '.'] then before else if rooted then reached else segment :: reached
  else segment :: reached

/-- The segments a walk along `segments` ends at. -/
def settle (rooted : Bool) (segments : List Text) : List Text :=
  (segments.foldl (step rooted) []).reverse

/-- The text of settled segments. -/
def render (rooted : Bool) (segments : List Text) : Text :=
  if rooted then '/' :: ['/'].intercalate segments
  else if segments = [] then ['.']
  else ['/'].intercalate segments

/-- The shortest path to the place that `path` leads to. -/
def normalize (path : Text) : Text :=
  render (isRooted path) (settle (isRooted path) (path.splitOn '/'))

/-- The path `rel` as seen from the directory `base`. -/
def join (base rel : Text) : Text :=
  if base = [] ∨ base = ['.'] then normalize rel
  else normalize (base ++ '/' :: rel)

/-- The segments of a path that name something. -/
def names (path : Text) : List Text :=
  (path.splitOn '/').filter fun segment => segment ≠ [] ∧ segment ≠ ['.']

/-- Leaves out the common front of two lists. -/
def dropCommon : List Text → List Text → List Text × List Text
  | a :: as, b :: bs => if a = b then dropCommon as bs else (a :: as, b :: bs)
  | as, bs => (as, bs)

/-- The path of `target` as seen from the directory `start`: empty when they are the same place.
When only one of them is rooted they share no base, and the answer is `target` from the root. -/
def relative (start target : Text) : Text :=
  let start := normalize start
  let target := normalize target
  if isRooted start ≠ isRooted target then
    if isRooted target then target else '/' :: target
  else
    let (up, down) := dropCommon (names start) (names target)
    ['/'].intercalate (List.replicate up.length ['.', '.'] ++ down)

end AssetLoom.Path.Segments
