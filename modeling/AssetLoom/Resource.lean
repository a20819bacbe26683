import AssetLoom.MediaType
import AssetLoom.Text.Base64
import AssetLoom.Text.Encoding
/-!
# Resources

A resource is a unit of content that is known by the path of its source. A compile changes its
content and its URI; `state` is the gate that lets it be compiled once.
-/

namespace AssetLoom

/-- The kinds of resources; each has its compiler. -/
inductive ResourceKind
  | template
  | script
  | style
  | image
  | other
  deriving DecidableEq, Repr

namespace ResourceKind

/-- The kind that the extension of a path suggests. -/
def ofPath (path : String) : ResourceKind :=
  match (Path.extension? path).map String.toLower with
  | some "tpl" | some "html" | some "htm" => .template
  | some "js" | some "mjs" => .script
  | some "css" => .style
  | _ => if MediaType.isImage (MediaType.ofPath path) then .image else .other

/-- The name of a kind. -/
def name : ResourceKind → String
  | template => "template"
  | script => "script"
  | style => "style"
  | image => "image"
  | other => "other"

end ResourceKind

/-- How far the compile of a resource has come. -/
inductive CompileState
  | pending
  /-- Being compiled. To reach it again is to go round in a circle. -/
  | compiling
  /-- Compiled; content and URI stay as they are. -/
  | compiled
  deriving DecidableEq, Repr

/-- A unit of content. -/
structure Resource where
  path : String
  /-- The name that a page asks for it by, if it is not the path. -/
  label : Option String := none
  kind : ResourceKind
  content : ByteArray
  /-- The output URI, once it is resolved. -/
  uri : Option String := none
  state : CompileState := .pending
  /-- Whether the content must not be changed. -/
  permanent : Bool := false

namespace Resource

/-- A resource that has not been compiled, of the kind that its path suggests. -/
def ofContent (path : String) (content : ByteArray) : Resource :=
  { path, kind := .ofPath path, content }

/-- The name that a page asks for the resource by. -/
def id (r : Resource) : String :=
  r.label.getD r.path

/-- The output URI, or the path as long as there is none. -/
def output (r : Resource) : String :=
  r.uri.getD r.path

/-- The content as text. -/
def text (r : Resource) : Text :=
  Text.decode r.content

/-- Whether the compile is complete. -/
def isCompiled (r : Resource) : Bool :=
  r.state == .compiled

/-- The content as a `data:` URI. -/
def dataUri (r : Resource) : String :=
  s!"data:{MediaType.ofPath r.path};base64,"
    ++ .ofList (Text.Base64.encode r.content.toList)

end Resource

end AssetLoom
