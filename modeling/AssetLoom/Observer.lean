import AssetLoom.Journal
/-!
# Observers

Observers are told of the events of a build and can stop it. How an observer reacts may depend on
all that has happened before.
-/

namespace AssetLoom

/-- Something that is told of events. -/
structure Observer where
  /-- The one event that it is told of; of every event if there is none. -/
  only : Option Event := none
  /-- Its reaction, given what has happened before: the reason of a failure, if it fails. -/
  react : Journal → Event → Resource → Option String

namespace Observer

/-- Whether the observer is told of an event. -/
def hears (observer : Observer) (event : Event) : Bool :=
  observer.only.all (· == event)

/-- An observer that never fails. -/
def silent (only : Option Event) : Observer :=
  { only, react := fun _ _ _ => none }

/-- How often the observer with a number has been told of an event of one of some resources. -/
def timesTold (number : Nat) (concerns : String → Bool) (journal : Journal) : Nat :=
  journal.countP fun
    | .observed observer _ resource => observer == number && concerns resource.path
    | _ => false

/-- The observer with a number that fails whenever it is told of an event of the resource `path`,
or of any resource if there is no path, at most `limit` times. -/
def failing (number : Nat) (only : Option Event) (path : Option String) (reason : String)
    (limit : Option Nat) : Observer where
  only := only
  react journal _ resource :=
    let concerns (p : String) : Bool := path.all (· == p)
    if concerns resource.path && limit.all (timesTold number concerns journal < ·) then some reason
    else none

end Observer

end AssetLoom
