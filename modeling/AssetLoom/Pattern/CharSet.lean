import AssetLoom.Text.Blank
import AssetLoom.Text.Digit
import AssetLoom.Text.Fold
import AssetLoom.Text.Word
/-!
# Sets of characters in a pattern

A set is kept as it is written: intervals and named sets, combined by the set operations. Whether
a character belongs to it is read off that form.
-/

namespace AssetLoom.Pattern

/-- A set of characters. -/
inductive CharSet
  /-- The characters from `low` to `high`. -/
  | interval (low high : Char)
  /-- Word characters of any script. -/
  | word
  /-- Decimal digits of any script. -/
  | digit
  /-- White space. -/
  | blank
  /-- No character. -/
  | empty
  | union (a b : CharSet)
  | inter (a b : CharSet)
  | diff (a b : CharSet)
  | symmDiff (a b : CharSet)
  | compl (a : CharSet)
  /-- Every character that equals one of `a` up to case. -/
  | anyCase (a : CharSet)
  /-- Every character that equals one of `a` up to the case of the letters of ASCII. -/
  | anyAsciiCase (a : CharSet)
  deriving DecidableEq, Repr

namespace CharSet

/-- The set of one character. -/
def single (c : Char) : CharSet :=
  .interval c c

/-- The union of intervals. -/
def intervals : List (Char × Char) → CharSet
  | [] => .empty
  | [(low, high)] => .interval low high
  | (low, high) :: rest => .union (.interval low high) (intervals rest)

/-- Decimal digits of ASCII. -/
def asciiDigit : CharSet :=
  .interval '0' '9'

/-- Word characters of ASCII. -/
def asciiWord : CharSet :=
  intervals [('0', '9'), ('A', 'Z'), ('_', '_'), ('a', 'z')]

/-- White space of ASCII. -/
def asciiBlank : CharSet :=
  intervals [('\t', '\r'), (' ', ' ')]

/-- Whether the set has the character `c`. -/
def contains : CharSet → Char → Bool
  | .interval low high, c => low.val ≤ c.val && c.val ≤ high.val
  | .word, c => Text.isWord c
  | .digit, c => Text.isDigit c
  | .blank, c => Text.isBlank c
  | .empty, _ => false
  | .union a b, c => a.contains c || b.contains c
  | .inter a b, c => a.contains c && b.contains c
  | .diff a b, c => a.contains c && !b.contains c
  | .symmDiff a b, c => a.contains c != b.contains c
  | .compl a, c => !a.contains c
  | .anyCase a, c => a.contains c || (Text.caseVariants c).any a.contains
  | .anyAsciiCase a, c => a.contains c || a.contains c.toLower || a.contains c.toUpper

/-- The bytes that a program spends on the set, roughly. -/
def weight : CharSet → Nat
  | .interval _ high => if high.val < 128 then 8 else 128
  | .word => 46000
  | .digit => 4000
  | .blank => 800
  | .empty => 0
  | .union a b | .inter a b | .diff a b | .symmDiff a b => a.weight + b.weight
  | .compl a => a.weight + 400
  | .anyCase a | .anyAsciiCase a => 2 * a.weight

end CharSet

end AssetLoom.Pattern
