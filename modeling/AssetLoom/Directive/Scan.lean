import AssetLoom.Directive.Expression
import AssetLoom.Directive.Tag
import AssetLoom.Edit
/-!
# Directives of a text

| directive         | form                                                    |
|-------------------|---------------------------------------------------------|
| embedded script   | `<script src="a.js"></script>`                          |
| embedded link     | `<link rel="stylesheet" href="a.css">`                  |
| embedded image    | `<img src="a.png" />`                                   |
| include, extends  | `include` or `extends`, `file="a.tpl"`, in braces       |
| require           | `brisk_require_js` or `brisk_require_css`, `name='a.js'`|
| widget            | `brisk_widget`, `name="nav.tpl"`                        |

* `scanEmbeds`, `scanRequires`, `scanIncludes`, `scanWidgets`: the directives of one sort.
* `scan`: the directives of one pass, in the order in which they start.
-/

namespace AssetLoom

/-- The kinds of directives. -/
inductive DirectiveKind
  | script
  | link
  | image
  | includeFile
  | extendFile
  | requireScript
  | requireStyle
  | widget
  deriving DecidableEq, Repr

/-- The two passes over a template. -/
inductive Pass
  /-- Embeds and requires: they are given the URI, the name or the content of a resource. -/
  | identity
  /-- Includes, extends and widgets: they are given a path that is relative to the template. -/
  | relative
  deriving DecidableEq, Repr

namespace DirectiveKind

/-- The pass that takes care of a directive. -/
def pass : DirectiveKind → Pass
  | script | link | image | requireScript | requireStyle => .identity
  | includeFile | extendFile | widget => .relative

/-- Whether the directive is a tag. -/
def isEmbed : DirectiveKind → Bool
  | script | link | image => true
  | _ => false

/-- The name of a kind. -/
def name : DirectiveKind → String
  | script => "script"
  | link => "link"
  | image => "img"
  | includeFile => "include"
  | extendFile => "extends"
  | requireScript => "require_js"
  | requireStyle => "require_css"
  | widget => "widget"

end DirectiveKind

/-- A directive found in a text. -/
structure Directive where
  kind : DirectiveKind
  /-- The address as it is written. -/
  address : Text
  /-- The bytes of the address. -/
  addressSpan : Span
  /-- The bytes of the whole directive. -/
  span : Span
  /-- The quote around the address. -/
  quote : Char
  deriving DecidableEq, Repr

namespace Directive

/-- The directive that a cut describes, at a byte offset. -/
def ofCut (offset : Nat) (kind : DirectiveKind) (cut : Cut) : Directive :=
  let start := offset + Text.byteLength cut.lead
  { kind
    address := cut.address
    addressSpan := ⟨start, start + Text.byteLength cut.address⟩
    span := ⟨offset, offset + Text.byteLength cut.text⟩
    quote := cut.quote }

/-- The text of the directive within the text that it was found in. -/
def source (directive : Directive) (t : Text) : Text :=
  (t.slice? directive.span.start directive.span.stop).getD []

/-- Reads the first of some directives that stands at the front of a text. -/
abbrev Reader := Text → Option (DirectiveKind × Cut)

/-- All directives of a text that starts at a byte offset; the first `skip` characters belong to
a directive that has been read. -/
def scanFrom (read : Reader) (offset skip : Nat) : Text → List Directive
  | [] => []
  | c :: rest =>
    match skip with
    | skip + 1 => scanFrom read (offset + c.utf8Size) skip rest
    | 0 =>
      match read (c :: rest) with
      | some (kind, cut) =>
        ofCut offset kind cut ::
          scanFrom read (offset + c.utf8Size) (cut.text.length - 1) rest
      | none => scanFrom read (offset + c.utf8Size) 0 rest

/-- Reads a tag. -/
def readEmbed : Reader := fun t =>
  ((Tag.script.cut? t).map (.script, ·)).or <|
    ((Tag.link.cut? t).map (.link, ·)).or <|
      (Tag.image.cut? t).map (.image, ·)

/-- Reads an expression with one of two keywords. -/
def readExpression (keywords : List (String × DirectiveKind)) (form : AttributeForm) :
    Reader := fun t =>
  keywords.findSome? fun (keyword, kind) =>
    (cutExpression? keyword.toList form t).map (kind, ·)

/-- Reads a request for a script or a style. -/
def readRequire : Reader :=
  readExpression [("brisk_require_js", .requireScript), ("brisk_require_css", .requireStyle)]
    (expressionAttribute "name".toList ['"', '\''])

/-- Reads an include or an extends. -/
def readInclude : Reader :=
  readExpression [("include", .includeFile), ("extends", .extendFile)]
    (expressionAttribute "file".toList ['"'])

/-- Reads a widget. -/
def readWidget : Reader :=
  readExpression [("brisk_widget", .widget)] (expressionAttribute "name".toList ['"', '\''])

/-- The tags of a text that embed a resource. -/
def scanEmbeds (t : Text) : List Directive :=
  scanFrom readEmbed 0 0 t

/-- The requests of a text for scripts and styles. -/
def scanRequires (t : Text) : List Directive :=
  scanFrom readRequire 0 0 t

/-- The includes and extends of a text. -/
def scanIncludes (t : Text) : List Directive :=
  scanFrom readInclude 0 0 t

/-- The widgets of a text. -/
def scanWidgets (t : Text) : List Directive :=
  scanFrom readWidget 0 0 t

/-- The directives of a pass, in order of start. -/
def scan (pass : Pass) (t : Text) : List Directive :=
  let found := match pass with
    | .identity => scanEmbeds t ++ scanRequires t
    | .relative => scanIncludes t ++ scanWidgets t
  found.mergeSort fun a b => a.span.startsBefore b.span

end Directive

end AssetLoom
