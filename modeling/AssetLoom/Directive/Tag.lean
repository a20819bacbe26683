import AssetLoom.Directive.Attribute
/-!
# Tags that embed a resource

Three tags of a page refer to another resource: `<script src="...">` up to its closing tag,
`<link href="...">` with its closing tag, if one follows, and the self-closing `<img src="..."/>`.
Their names and those of their attributes are written in any case.
-/

namespace AssetLoom.Directive

/-- The tags that embed a resource. -/
inductive Tag
  | script
  | link
  | image
  deriving DecidableEq, Repr

namespace Tag

/-- The name of the tag. -/
def name : Tag → Text
  | script => "script".toList
  | link => "link".toList
  | image => "img".toList

/-- The attribute with the address. -/
def form (tag : Tag) : AttributeForm where
  name := match tag with
    | script | image => "src".toList
    | link => "href".toList
  same := inAnyCase
  quotes := ['"']
  stop := '>'

/-- The closing tag at the front of a text. -/
def closing? (name : Text) (t : Text) : Option Text :=
  match t with
  | '<' :: '/' :: rest =>
    (stripName? inAnyCase name rest).bind fun left =>
      match left.dropWhile Text.isBlank with
      | '>' :: _ =>
        some ('<' :: '/' :: rest.take name.length ++ left.takeWhile Text.isBlank ++ ['>'])
      | _ => none
  | _ => none

/-- The text up to the end of the first closing tag. -/
def throughClosing? (name : Text) : Text → Option Text
  | [] => none
  | c :: rest =>
    match closing? name (c :: rest) with
    | some tag => some tag
    | none => (throughClosing? name rest).map (c :: ·)

/-- The text up to the end of the opening tag, and the rest. -/
def throughOpening? (t : Text) : Option (Text × Text) :=
  match t.dropWhile (· ≠ '>') with
  | _ :: left => some (t.takeWhile (· ≠ '>') ++ ['>'], left)
  | [] => none

/-- What belongs to the directive behind the value of its attribute. -/
def finish? (tag : Tag) (t : Text) : Option Text :=
  match throughOpening? t with
  | none => none
  | some (opening, left) =>
    match tag with
    | script => (throughClosing? tag.name left).map (opening ++ ·)
    | link =>
      match closing? tag.name (left.dropWhile Text.isBlank) with
      | some close => some (opening ++ left.takeWhile Text.isBlank ++ close)
      | none => some opening
    | image => if ['/', '>'].isSuffixOf opening then some opening else none

/-- Reads the tag at the front of a text. -/
def cut? (tag : Tag) (t : Text) : Option Cut :=
  match t with
  | '<' :: rest =>
    match stripName? inAnyCase tag.name rest with
    | some left =>
      if endsWord left then
        (findAttribute? tag.form tag.finish? left).map
          (·.prepend ('<' :: rest.take tag.name.length))
      else none
    | none => none
  | _ => none

end Tag

end AssetLoom.Directive
