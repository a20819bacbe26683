import AssetLoom.CompileError
import AssetLoom.Path.Basic
import AssetLoom.Pattern
import AssetLoom.Toml.Value
/-!
# Output rules

A rule maps the path of a resource to its output URI. Its pattern is searched for in the path; its
destination is a template for what the first match is replaced by. A destination without an
extension is a directory, in which the resource keeps its name.

* `Rule.mapPath`: the URI for a path.
* `RuleSet.find?`: of several rules the first one that matches applies.
-/

namespace AssetLoom

/-- A pattern for paths and where they go. -/
structure Rule where
  pattern : Pattern
  /-- The destination as it is configured. That it is a string is looked at when it is used. -/
  target : Option Toml.Value

namespace Rule

/-- Whether the rule applies to a path. -/
def matchesPath (rule : Rule) (path : String) : Bool :=
  rule.pattern.isMatch path.toList

/-- The destination as a string, if there is one. -/
def destination (rule : Rule) : Except CompileError (Option String) :=
  match rule.target with
  | none => .ok none
  | some (.string target) => .ok (some target)
  | some other => .error (.invalidDestination rule.pattern.source other.typeName)

/-- The template for a destination: the path of a file, or of a directory and the name of the
source in it. -/
def template (target source : String) : String :=
  if (Path.extension? target).isSome then target
  else if Path.isDirectory target then target ++ Path.basename source
  else target ++ "/" ++ Path.basename source

/-- The output URI for a path. Without a destination, or with an empty one, it is the path. -/
def mapPath (rule : Rule) (source : String) : Except CompileError String := do
  match ← rule.destination with
  | none => return source
  | some target =>
    if target = "" then return source
    else return .ofList (rule.pattern.replaceFirst source.toList (template target source).toList)

end Rule

/-- Rules in the order in which they are tried. -/
abbrev RuleSet := List Rule

/-- The first rule that applies to a path. -/
def RuleSet.find? (rules : RuleSet) (path : String) : Option Rule :=
  List.find? (·.matchesPath path) rules

end AssetLoom
