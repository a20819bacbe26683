import AssetLoom.Pattern.Parser
import AssetLoom.Pattern.Search
/-!
# Patterns

A pattern is a regular expression over the characters of a text. The first match counts: the one
that starts first and, among those, the one that its expression prefers.

* `Pattern.parse?`: the pattern with a given source.
* `Pattern.find?`: the first match of a pattern.
* `Pattern.replaceFirst`: replaces the first match by a template such as `$1/${name}.html`.
-/

namespace AssetLoom

/-- A pattern that can be searched for. -/
structure Pattern where
  /-- The text it was read from. -/
  source : String
  machine : Pattern.Machine
  /-- The number of its groups. -/
  groups : Nat
  /-- The groups that have names. -/
  names : List (Text × Nat)

namespace Pattern

/-- Reads a pattern. -/
def parse? (source : String) : Except Fault Pattern := do
  let parsed ← parse source.toList
  return ⟨source, Machine.ofExpr parsed.expr, parsed.groups, parsed.names⟩

/-- A match in a text. -/
structure Match where
  /-- What precedes the match. -/
  before : Text
  /-- What follows it. -/
  after : Text
  /-- What the groups have matched, the whole match first. -/
  groups : List (Option Text)

/-- The text between two noted positions. -/
def groupText (t : Text) (slots : Slots) (index : Nat) : Option Text :=
  match slots[2 * index]?.join, slots[2 * index + 1]?.join with
  | some start, some stop => some ((t.take stop).drop start)
  | _, _ => none

/-- The first match of the pattern. -/
def find? (p : Pattern) (t : Text) : Option Match :=
  (search p.machine p.groups t).map fun slots =>
    { before := t.take ((slots[0]?.join).getD 0)
      after := t.drop ((slots[1]?.join).getD 0)
      groups := (List.range (p.groups + 1)).map (groupText t slots) }

/-- Whether the pattern matches somewhere in the text. -/
def isMatch (p : Pattern) (t : Text) : Bool :=
  (p.find? t).isSome

/-! ## Templates -/

/-- A character of a name that is written without braces. -/
def isReferenceChar (c : Char) : Bool :=
  c.isAlphanum || c == '_'

/-- The number that a reference is written as. -/
def referenceNumber? (name : Text) : Option Nat :=
  let digits := match name with
    | '+' :: rest => rest
    | _ => name
  if digits ≠ [] ∧ digits.all Char.isDigit then
    some (digits.foldl (fun n d => 10 * n + (d.toNat - '0'.toNat)) 0)
  else none

/-- What the group with the number or the name `name` has matched; nothing if there is none. -/
def reference (p : Pattern) (found : Match) (name : Text) : Text :=
  let index? := (referenceNumber? name).or (p.names.lookup name)
  ((index?.bind (found.groups[·]?)).join).getD []

theorem length_dropWhile_le (p : Char → Bool) (t : Text) : (t.dropWhile p).length ≤ t.length :=
  (List.dropWhile_sublist p).length_le

theorem length_lt_of_dropWhile_eq_cons {p : Char → Bool} {t left : Text} {c : Char}
    (h : t.dropWhile p = c :: left) : left.length < t.length := by
  have hle := length_dropWhile_le p t
  rw [h, List.length_cons] at hle
  omega

/-- Fills in a template: `$$` is a dollar sign, `$name` and `${name}` are what a group has
matched, and any other dollar sign stands for itself. -/
def expand (p : Pattern) (found : Match) (template : Text) : Text :=
  match template with
  | [] => []
  | '$' :: '$' :: rest => '$' :: expand p found rest
  | '$' :: '{' :: rest =>
    match _hclose : rest.dropWhile (· ≠ '}') with
    | _ :: left => reference p found (rest.takeWhile (· ≠ '}')) ++ expand p found left
    | [] => '$' :: expand p found ('{' :: rest)
  | '$' :: rest =>
    match rest.takeWhile isReferenceChar with
    | [] => '$' :: expand p found rest
    | name => reference p found name ++ expand p found (rest.dropWhile isReferenceChar)
  | c :: rest => c :: expand p found rest
termination_by template.length
decreasing_by
  all_goals simp only [List.length_cons]
  · omega
  · have := length_lt_of_dropWhile_eq_cons _hclose
    omega
  · omega
  · omega
  · have := length_dropWhile_le isReferenceChar rest
    omega
  · omega

/-- The text with its first match replaced by the filled in template. -/
def replaceFirst (p : Pattern) (t template : Text) : Text :=
  match p.find? t with
  | some found => found.before ++ expand p found template ++ found.after
  | none => t

end Pattern

end AssetLoom
