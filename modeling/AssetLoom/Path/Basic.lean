import AssetLoom.Path.Segments
/-!
# Paths of resources

The operations on paths that the rest of the library uses.
-/

namespace AssetLoom.Path

/-- The directory part of a path, `.` for a bare name. -/
def dirname (path : String) : String :=
  .ofList (Segments.dirname path.toList)

/-- The last segment of a path. -/
def basename (path : String) : String :=
  .ofList (Segments.basename path.toList)

/-- The extension of the last segment, without its dot. A name that only starts with a dot has
none. -/
def extension? (path : String) : Option String :=
  (Segments.extension? path.toList).map String.ofList

/-- Whether a path ends in a separator, and so names a directory. -/
def isDirectory (path : String) : Bool :=
  match path.toList.getLast? with
  | some c => c == '/' || c == '\\'
  | none => false

/-- The shortest path to the same place. -/
def normalize (path : String) : String :=
  .ofList (Segments.normalize path.toList)

/-- The path `rel` as seen from the directory `base`, normalized. -/
def join (base rel : String) : String :=
  .ofList (Segments.join base.toList rel.toList)

/-- The path of `target` as seen from the directory `start`. -/
def relative (start target : String) : String :=
  .ofList (Segments.relative start.toList target.toList)

end AssetLoom.Path
