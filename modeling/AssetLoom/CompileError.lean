import AssetLoom.Event
/-!
# Errors of a compile

Each error is a defect of the build and stops the whole chain of compiles it occurs in.
-/

namespace AssetLoom

/-- What stops a compile. -/
inductive CompileError
  /-- A directive of `referrer` names a resource that is not registered. -/
  | unresolved (path referrer : String)
  /-- The resource to start from is not registered. -/
  | unknownRoot (path : String)
  /-- The destination of the rule with this pattern is a value of another type than a string. -/
  | invalidDestination (pattern found : String)
  /-- An observer failed. -/
  | hook (event : Event) (path reason : String)
  /-- A resource was reached again while it was being compiled. -/
  | cycle (chain : List String)
  deriving DecidableEq, Repr

namespace CompileError

/-- The message of an error. -/
def message : CompileError → String
  | unresolved path referrer => s!"resource not found: `{path}` in `{referrer}`"
  | unknownRoot path => s!"resource not found: `{path}`"
  | invalidDestination pattern found =>
    s!"rule `{pattern}`: `to` must be a string, found {found}"
  | hook event path _ => s!"{event.name} hook failed for `{path}`"
  | cycle chain => "circular reference: " ++ " -> ".intercalate chain

/-- What the error is about: the path of a resource, or the pattern of a rule. -/
def about : CompileError → String
  | unresolved path _ | unknownRoot path | hook _ path _ => path
  | invalidDestination pattern _ => pattern
  | cycle chain => chain.getLast?.getD ""

end CompileError

end AssetLoom
