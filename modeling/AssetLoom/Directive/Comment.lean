import AssetLoom.Text.Offset
/-!
# Comments of templates

A comment reaches from an opening mark, two braces and a star, to the first closing mark behind
it, a star and two braces. An opening mark without a closing one is text.
-/

namespace AssetLoom.Directive

/-- The number of characters up to the end of the first closing mark. -/
def throughCommentEnd? : Text → Option Nat
  | '*' :: '}' :: '}' :: _ => some 3
  | _ :: rest => (throughCommentEnd? rest).map (· + 1)
  | [] => none

/-- The length of the comment at the front of a text. -/
def commentLength? : Text → Option Nat
  | '{' :: '{' :: '*' :: rest => (throughCommentEnd? rest).map (· + 3)
  | _ => none

/-- The text without its comments; the first `skip` characters belong to a comment. -/
def stripCommentsFrom (skip : Nat) : Text → Text
  | [] => []
  | c :: rest =>
    match skip with
    | skip + 1 => stripCommentsFrom skip rest
    | 0 =>
      match commentLength? (c :: rest) with
      | some length => stripCommentsFrom (length - 1) rest
      | none => c :: stripCommentsFrom 0 rest

/-- The text without its comments. -/
def stripComments (t : Text) : Text :=
  stripCommentsFrom 0 t

end AssetLoom.Directive
