/-!
# Build modes
-/

namespace AssetLoom

/-- How a build is meant. -/
inductive BuildMode
  /-- For publication: comments are removed from templates. -/
  | production
  /-- For work on the site: templates keep their comments. -/
  | development
  deriving DecidableEq, Repr

namespace BuildMode

/-- The mode with a name, in any case. -/
def ofName? (name : String) : Option BuildMode :=
  match name.toLower with
  | "production" | "prod" | "build" => some .production
  | "development" | "dev" | "serve" => some .development
  | _ => none

/-- Whether comments are removed before directives are looked for. -/
def stripsComments : BuildMode → Bool
  | production => true
  | development => false

/-- Whether this is the mode for work on the site. -/
def isDevelopment (mode : BuildMode) : Bool :=
  !mode.stripsComments

end BuildMode

end AssetLoom
