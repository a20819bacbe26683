import AssetLoom.Pattern.Expr
/-!
# Programs of patterns

A program is a graph whose nodes read a character, test the position, note the position, or offer
ways to go on in the order in which they are to be tried.

* `Program.emit`: adds the nodes for an expression. A program is built from its end: each part is
  given the node at which it goes on.
* `Machine.ofExpr`: a program with its start. A node that does not exist leads nowhere.
-/

namespace AssetLoom.Pattern

/-- A node of a program. -/
inductive Node
  /-- Reads one character of `set`. -/
  | read (set : CharSet) (next : Nat)
  /-- Tests the position. -/
  | test (condition : Look) (next : Nat)
  /-- Notes the position in `slot`. -/
  | note (slot next : Nat)
  /-- Tries `first`, then `second`. -/
  | fork (first second : Nat)
  /-- The pattern has matched. -/
  | accept
  deriving Repr

/-- The nodes of a program by number. -/
abbrev Program := Array Node

namespace Program

/-- Adds a node: its number, and the longer program. -/
def add (node : Node) (code : Program) : Nat × Program :=
  (code.size, code.push node)

/-- A fork between going on with `body` and leaving to `next`. -/
def chooseNode (greedy : Bool) (body next : Nat) : Node :=
  if greedy then .fork body next else .fork next body

/-- Adds `count` parts one before the other. -/
def times (count : Nat) (part : Nat → Program → Nat × Program) (next : Nat) (code : Program) :
    Nat × Program :=
  match count with
  | 0 => (next, code)
  | count + 1 =>
    let (entry, code) := part next code
    times count part entry code

/-- Adds up to `count` parts around `inner`, each within the one before it, which all leave to
`next`. -/
def upTo (count : Nat) (greedy : Bool) (part : Nat → Program → Nat × Program) (next inner : Nat)
    (code : Program) : Nat × Program :=
  match count with
  | 0 => (inner, code)
  | count + 1 =>
    let (entry, code) := part inner code
    let (outer, code) := code.add (chooseNode greedy entry next)
    upTo count greedy part next outer code

/-- Adds a part and a fork behind it that leads back to it: the part, and the fork. -/
def loop (greedy : Bool) (part : Nat → Program → Nat × Program) (next : Nat) (code : Program) :
    Nat × Nat × Program :=
  let (back, code) := code.add .accept
  let (entry, code) := part back code
  (entry, back, code.setIfInBounds back (chooseNode greedy entry next))

/-- Adds the nodes for an expression that goes on at `next`. -/
def emit : Expr → Nat → Program → Nat × Program
  | .empty, next, code => (next, code)
  | .oneOf set, next, code => code.add (.read set next)
  | .look condition, next, code => code.add (.test condition next)
  | .group index body, next, code =>
    let (close, code) := code.add (.note (2 * index + 1) next)
    let (entry, code) := emit body close code
    code.add (.note (2 * index) entry)
  | .seq first second, next, code =>
    let (entry, code) := emit second next code
    emit first entry code
  | .alt first second, next, code =>
    let (b, code) := emit second next code
    let (a, code) := emit first next code
    code.add (.fork a b)
  | .repetition body least most greedy, next, code =>
    match most with
    | some most =>
      let (entry, code) := upTo (most - least) greedy (emit body) next next code
      times least (emit body) entry code
    | none =>
      let (entry, back, code) := loop greedy (emit body) next code
      if least = 0 then
        if body.isNullable then code.add (chooseNode greedy entry next) else (back, code)
      else times (least - 1) (emit body) entry code

end Program

/-- A program with the node at which it starts. -/
structure Machine where
  start : Nat
  code : Program
  deriving Repr

/-- The machine for an expression; it notes the ends of the whole match in the slots 0 and 1. -/
def Machine.ofExpr (expr : Expr) : Machine :=
  let (accept, code) := Program.add .accept #[]
  let (start, code) := Program.emit (.group 0 expr) accept code
  ⟨start, code⟩

end AssetLoom.Pattern
