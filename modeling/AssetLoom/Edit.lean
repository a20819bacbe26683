import AssetLoom.Text.Offset
/-!
# Edits

An edit replaces the bytes of a range of a text. The ranges of several edits all refer to the text
as it is before any of them, so no edit ever looks at what another one has put in.

* `disjoint`: leaves out every item whose range overlaps the one kept before it, in order of start.
* `applyEdits?`: the edited text; `none` when a kept range is no part of the text.
-/

namespace AssetLoom

/-- The bytes from `start` up to `stop`. -/
structure Span where
  /-- Offset of the first byte. -/
  start : Nat
  /-- Offset behind the last byte. -/
  stop : Nat
  deriving DecidableEq, Repr

namespace Span

/-- Whether two spans share a byte. Spans that touch do not overlap. -/
def overlaps (a b : Span) : Bool :=
  decide (a.start < b.stop) && decide (b.start < a.stop)

/-- Spans in order of start. -/
def startsBefore (a b : Span) : Bool :=
  decide (a.start ≤ b.start)

end Span

/-- Keeps the first item, and each later one that does not overlap the one kept last. -/
def keepDisjoint {α : Type} (span : α → Span) : Option α → List α → List α
  | _, [] => []
  | none, x :: rest => x :: keepDisjoint span (some x) rest
  | some last, x :: rest =>
    if (span last).overlaps (span x) then keepDisjoint span (some last) rest
    else x :: keepDisjoint span (some x) rest

/-- The items in order of start, without those that overlap an earlier one. Of two items with the
same start the one listed first comes first. -/
def disjoint {α : Type} (span : α → Span) (items : List α) : List α :=
  keepDisjoint span none (items.mergeSort fun a b => (span a).startsBefore (span b))

/-- Replaces the bytes of `span` by `replacement`. -/
structure Edit where
  /-- The bytes that are replaced. -/
  span : Span
  /-- What stands in their place. -/
  replacement : Text
  deriving DecidableEq, Repr

/-- Copies the text from `cursor` on, with the edits in it. -/
def spliceFrom? (text : Text) : Nat → List Edit → Option Text
  | cursor, [] => text.slice? cursor text.byteLength
  | cursor, edit :: rest => do
    let kept ← text.slice? cursor edit.span.start
    let tail ← spliceFrom? text edit.span.stop rest
    return kept ++ edit.replacement ++ tail

/-- The text with the edits in it, in any order; an edit that overlaps an earlier one is skipped.
There is no answer when a range that is not skipped is out of bounds or out of order, or when it
ends inside a character. -/
def applyEdits? (text : Text) (edits : List Edit) : Option Text :=
  spliceFrom? text 0 (disjoint Edit.span edits)

/-- The text with the edits in it, unchanged when they do not fit. -/
def applyEdits (text : Text) (edits : List Edit) : Text :=
  (applyEdits? text edits).getD text

end AssetLoom
