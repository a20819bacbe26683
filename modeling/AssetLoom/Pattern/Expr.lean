import AssetLoom.Pattern.CharSet
/-!
# Pattern expressions

The expressions that a pattern is made of. Alternatives and repetitions are ordered: of two ways
to match, the one that is tried first wins.

* `Look.holds`: a condition on the characters around a position.
* `Expr.isNullable`: whether an expression can match without reading a character.
* `Expr.weight`: the size of the program for an expression.
-/

namespace AssetLoom.Pattern

/-- A condition on a position in a text. -/
inductive Look
  | textStart
  | textEnd
  /-- At the start of a line; with `crlf` a carriage return ends lines, too. -/
  | lineStart (crlf : Bool)
  | lineEnd (crlf : Bool)
  /-- Between a word character and another one, in either order. -/
  | wordEdge (ascii : Bool)
  | notWordEdge (ascii : Bool)
  | wordStart (ascii : Bool)
  | wordEnd (ascii : Bool)
  /-- Not behind a word character. -/
  | notBehindWord (ascii : Bool)
  /-- Not before a word character. -/
  | notBeforeWord (ascii : Bool)
  deriving DecidableEq, Repr

namespace Look

/-- Whether there is a character and it may stand in a word. -/
def isWordChar (ascii : Bool) : Option Char → Bool
  | some c => if ascii then Text.isAsciiWord c else Text.isWord c
  | none => false

/-- Whether the condition holds between the characters `before` and `after`. -/
def holds (before after : Option Char) : Look → Bool
  | .textStart => before.isNone
  | .textEnd => after.isNone
  | .lineStart crlf =>
    before.isNone || before == some '\n' || crlf && before == some '\r' && after != some '\n'
  | .lineEnd false => after.isNone || after == some '\n'
  | .lineEnd true =>
    after.isNone || after == some '\r' || after == some '\n' && before != some '\r'
  | .wordEdge ascii => isWordChar ascii before != isWordChar ascii after
  | .notWordEdge ascii => isWordChar ascii before == isWordChar ascii after
  | .wordStart ascii => !isWordChar ascii before && isWordChar ascii after
  | .wordEnd ascii => isWordChar ascii before && !isWordChar ascii after
  | .notBehindWord ascii => !isWordChar ascii before
  | .notBeforeWord ascii => !isWordChar ascii after

end Look

/-- An expression. -/
inductive Expr
  /-- Matches the empty text. -/
  | empty
  /-- Matches one character of the set. -/
  | oneOf (set : CharSet)
  | look (condition : Look)
  /-- Remembers what `body` matches as the group `index`. -/
  | group (index : Nat) (body : Expr)
  | seq (first second : Expr)
  /-- Tries `first`, then `second`. -/
  | alt (first second : Expr)
  /-- Between `least` and `most` times `body`; a greedy repetition tries to go on first. -/
  | repetition (body : Expr) (least : Nat) (most : Option Nat) (greedy : Bool)
  deriving DecidableEq, Repr

namespace Expr

/-- The sequence of some expressions. -/
def seqOf : List Expr → Expr
  | [] => .empty
  | [e] => e
  | e :: rest => .seq e (seqOf rest)

/-- The alternatives `first` and `others`, in this order. -/
def altOf (first : Expr) : List Expr → Expr
  | [] => first
  | second :: others => .alt first (altOf second others)

/-- Whether the expression can match the empty text. -/
def isNullable : Expr → Bool
  | .empty | .look _ => true
  | .oneOf _ => false
  | .group _ body => body.isNullable
  | .seq first second => first.isNullable && second.isNullable
  | .alt first second => first.isNullable || second.isNullable
  | .repetition body least most _ => least == 0 || most == some 0 || body.isNullable

/-- Whether the expression matches nothing but the empty text. -/
def readsNothing : Expr → Bool
  | .empty | .look _ => true
  | .oneOf _ => false
  | .group _ body => body.readsNothing
  | .seq first second | .alt first second => first.readsNothing && second.readsNothing
  | .repetition body _ most _ => most == some 0 || body.readsNothing

/-- The repetition of `body`. To match the empty text twice is the same as to match it once. -/
def repeated (body : Expr) (least : Nat) (most : Option Nat) (greedy : Bool) : Expr :=
  let (least, most) :=
    if body.readsNothing then (min least 1, some (min (most.getD 1) 1)) else (least, most)
  match least, most with
  | 0, some 0 => .empty
  | 1, some 1 => body
  | _, _ => .repetition body least most greedy

/-- The bytes of the program for the expression, roughly. -/
def weight : Expr → Nat
  | .empty | .look _ => 32
  | .oneOf set => 32 + set.weight
  | .group _ body => 64 + body.weight
  | .seq first second => first.weight + second.weight
  | .alt first second => 40 + first.weight + second.weight
  | .repetition body least most _ =>
    match most with
    | none => 40 + max 1 least * body.weight
    | some most => least * body.weight + (most - least) * (40 + body.weight)

end Expr

end AssetLoom.Pattern
