import AssetLoom.Pattern.Program
import AssetLoom.Text.Offset
/-!
# The leftmost match

A text is searched in one pass. At each position there is a list of threads, the one to be
preferred first; a node is visited by the first thread that reaches it only, so the work at a
position is bounded by the size of the program.

* `advance`: follows threads to the nodes that read or accept.
* `search`: the slots of the first match, in order of start, then of preference.
-/

namespace AssetLoom.Pattern

/-- The positions noted so far, as numbers of characters. -/
abbrev Slots := Array (Option Nat)

/-- A way of matching: the node it has come to, and what it has noted. -/
structure Thread where
  node : Nat
  slots : Slots

/-- How many nodes have not been visited. -/
def unvisited (visited : Array Bool) : Nat :=
  visited.countP (!·)

theorem unvisited_set_lt {visited : Array Bool} {i : Nat} (h : i < visited.size)
    (hi : visited[i] = false) : unvisited (visited.set i true) < unvisited visited := by
  have hpos : 0 < unvisited visited :=
    Array.countP_pos_iff.2 ⟨visited[i], Array.getElem_mem h, by simp [hi]⟩
  have hcount : unvisited (visited.set i true) = unvisited visited - 1 := by
    simp [unvisited, Array.countP_set h, hi]
  omega

/-- The characters around a position, and its number. -/
structure Place where
  before : Option Char
  after : Option Char
  index : Nat

/-- Follows the threads of a stack, the first one first, up to nodes that read or accept. Gives
those threads in order, added in front of `found`, which is in reverse order. -/
def advance (code : Program) (place : Place) (stack : List Thread) (visited : Array Bool)
    (found : List Thread) : List Thread :=
  match stack with
  | [] => found.reverse
  | thread :: stack =>
    if h : thread.node < visited.size then
      if hv : visited[thread.node] = false then
        let visited' := visited.set thread.node true
        match code[thread.node]? with
        | some (.read _ _) | some .accept => advance code place stack visited' (thread :: found)
        | some (.test condition next) =>
          if condition.holds place.before place.after then
            advance code place ({ thread with node := next } :: stack) visited' found
          else advance code place stack visited' found
        | some (.note slot next) =>
          let slots := thread.slots.setIfInBounds slot (some place.index)
          advance code place (⟨next, slots⟩ :: stack) visited' found
        | some (.fork first second) =>
          let branches := [{ thread with node := first }, { thread with node := second }]
          advance code place (branches ++ stack) visited' found
        | none => advance code place stack visited' found
      else advance code place stack visited found
    else advance code place stack visited found
termination_by (unvisited visited, stack.length)
decreasing_by
  all_goals first
    | exact Prod.Lex.left _ _ (unvisited_set_lt h hv)
    | exact Prod.Lex.right _ (by simp)

/-- The threads that are preferred to a match, and the match. -/
def splitAccepted (code : Program) : List Thread → List Thread × Option Slots
  | [] => ([], none)
  | thread :: rest =>
    match code[thread.node]? with
    | some .accept => ([], some thread.slots)
    | _ =>
      let (ahead, accepted) := splitAccepted code rest
      (thread :: ahead, accepted)

/-- The thread behind the character `c`, if its node reads `c`. -/
def Thread.read? (code : Program) (c : Char) (thread : Thread) : Option Thread :=
  match code[thread.node]? with
  | some (.read set next) => if set.contains c then some ⟨next, thread.slots⟩ else none
  | _ => none

/-- The threads that go on from a place, and the best match so far. A new thread starts there as
long as nothing has matched. -/
def visit (machine : Machine) (fresh : Slots) (place : Place) (threads : List Thread)
    (best : Option Slots) : List Thread × Option Slots :=
  let threads := if best.isNone then threads ++ [⟨machine.start, fresh⟩] else threads
  let visited := Array.replicate machine.code.size false
  let (ahead, accepted) :=
    splitAccepted machine.code (advance machine.code place threads visited [])
  (ahead, accepted.or best)

/-- Searches the rest of a text, of which `index` characters up to `before` have been read. -/
def searchFrom (machine : Machine) (fresh : Slots) (before : Option Char) (index : Nat)
    (threads : List Thread) (best : Option Slots) : Text → Option Slots
  | [] => (visit machine fresh ⟨before, none, index⟩ threads best).2
  | c :: rest =>
    let (ahead, best) := visit machine fresh ⟨before, some c, index⟩ threads best
    if ahead.isEmpty && best.isSome then best
    else
      searchFrom machine fresh (some c) (index + 1)
        (ahead.filterMap (Thread.read? machine.code c)) best rest

/-- The slots of the first match in a text, for a machine with `groups` groups. -/
def search (machine : Machine) (groups : Nat) (t : Text) : Option Slots :=
  searchFrom machine (Array.replicate (2 * (groups + 1)) none) none 0 [] none t

end AssetLoom.Pattern
