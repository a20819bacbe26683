/-!
# Events of a compile

A resource that is compiled passes through four fixed points, in this order.
-/

namespace AssetLoom

/-- The points of a compile that observers are told about. -/
inductive Event
  /-- Before any substitution. -/
  | preCompile
  /-- The content is substituted, the URI is not resolved yet. -/
  | compiled
  /-- About to resolve the URI. -/
  | preResolve
  /-- The URI is assigned. -/
  | resolved
  deriving DecidableEq, Repr

namespace Event

/-- All events in the order in which they are emitted. -/
def order : List Event :=
  [preCompile, compiled, preResolve, resolved]

/-- The name of an event. -/
def name : Event → String
  | preCompile => "pre-compile"
  | compiled => "compiled"
  | preResolve => "pre-resolve"
  | resolved => "resolved"

end Event

end AssetLoom
