import AssetLoom.Directive.Attribute
/-!
# Template expressions that refer to a resource

A template expression stands between `{{` and `}}`. The ones that matter here start with one of a
few keywords and name a resource in an attribute. Behind the address nothing but the closing
braces may hold a `}`.
-/

namespace AssetLoom.Directive

/-- The mark that a template expression starts with. -/
def openMark : String := "\x7b\x7b"

/-- The mark that a template expression ends with. -/
def closeMark : String := "\x7d\x7d"

/-- What follows the value of the attribute, up to the closing braces. -/
def throughBraces? (t : Text) : Option Text :=
  match t.dropWhile (· ≠ '}') with
  | '}' :: '}' :: _ => some (t.takeWhile (· ≠ '}') ++ ['}', '}'])
  | _ => none

/-- Reads the expression with the given keyword at the front of a text. -/
def cutExpression? (keyword : Text) (form : AttributeForm) (t : Text) : Option Cut :=
  match t with
  | '{' :: '{' :: rest =>
    match stripName? exactly keyword (rest.dropWhile Text.isBlank) with
    | some left =>
      if endsWord left then
        (findAttribute? form throughBraces? left).map
          (·.prepend ('{' :: '{' :: rest.takeWhile Text.isBlank ++ keyword))
      else none
    | none => none
  | _ => none

/-- The attribute of an expression: its name is written exactly so. -/
def expressionAttribute (name : Text) (quotes : List Char) : AttributeForm where
  name := name
  same := exactly
  quotes := quotes
  stop := '}'

end AssetLoom.Directive
