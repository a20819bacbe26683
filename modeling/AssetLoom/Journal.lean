import AssetLoom.Directive.Scan
import AssetLoom.Resource
import AssetLoom.Event
/-!
# The journal of a build

What happens in a build is written down in the order in which it happens. The events and the calls
of observers are read off the journal, and so are the lines of a trace.
-/

namespace AssetLoom

/-- One thing that happens in a build. -/
inductive Entry
  /-- All templates are going to be compiled; there are `count` of them. -/
  | roots (count : Nat)
  /-- The compile of a resource starts. -/
  | opened (path : String) (kind : ResourceKind)
  /-- A dependency that is not compiled yet is going to be. -/
  | reached (referrer target : String)
  /-- All edits of a pass are known. -/
  | edits (pass : Pass) (path : String) (count : Nat)
  /-- The URI of a resource is known. -/
  | resolved (path uri : String)
  /-- Observers are going to be told of an event. -/
  | emitted (event : Event) (path : String)
  /-- The observer with this number is told of an event. -/
  | observed (observer : Nat) (event : Event) (resource : Resource)

namespace Entry

/-- The topic and the text of the line for an entry in a trace. -/
def line? : Entry → Option (String × String)
  | roots count => some ("compile", s!"{count} templates")
  | opened path kind => some ("compile", s!"{path} ({kind.name})")
  | reached referrer target => some ("compile", s!"{referrer} -> {target}")
  | edits .identity path count => some ("compile", s!"{path}: {count} identity edits")
  | edits .relative path count => some ("compile", s!"{path}: {count} relative edits")
  | resolved path uri => some ("resolve", s!"{path} => {uri}")
  | emitted event path => some ("hook", s!"{event.name} {path}")
  | observed _ _ _ => none

/-- The event that is emitted, and for which resource. -/
def emission? : Entry → Option (Event × String)
  | emitted event path => some (event, path)
  | _ => none

end Entry

/-- The entries of a build, the first one first. -/
abbrev Journal := List Entry

/-- The events of a journal with the paths of their resources. -/
def Journal.emissions (journal : Journal) : List (Event × String) :=
  journal.filterMap Entry.emission?

end AssetLoom
