import AssetLoom.Address
import AssetLoom.Directive.Scan
import AssetLoom.Resource
/-!
# What a pass over a template changes

Before anything is compiled a pass settles which directives it takes care of, and which bytes each
of them replaces. A script or a link whose content is wanted in place is replaced as a whole, and
no other directive within it counts; of any other directive the address is replaced.

* `plan`: the directives of a pass with the resources they name.
* `identityReplacement`, `relativeReplacement`: what is written in their place.
-/

namespace AssetLoom

/-- A directive that names a resource of the build. -/
structure Planned where
  directive : Directive
  /-- The path of the resource. -/
  key : String
  /-- Whether its content is wanted in place. -/
  inline : Bool
  /-- The bytes that are replaced. -/
  region : Span
  deriving DecidableEq, Repr

/-- What is to be done for a directive of the resource `referrer`, if it names a resource. -/
def Planned.ofDirective? (referrer : String) (directive : Directive) : Option Planned :=
  match Address.resolve directive.address referrer with
  | .resource key inline =>
    let swallows := inline && (directive.kind == .script || directive.kind == .link)
    let region := if swallows then directive.span else directive.addressSpan
    some { directive, key, inline, region }
  | _ => none

/-- The directives of a pass that name a resource, without those whose bytes another one replaces
already. -/
def plan (t : Text) (pass : Pass) (referrer : String) : List Planned :=
  disjoint Planned.region ((Directive.scan pass t).filterMap (Planned.ofDirective? referrer))

/-- What the first pass writes for a directive: the content, the name or the URI of a resource. -/
def identityReplacement (planned : Planned) (dependency : Resource) : Text :=
  match planned.directive.kind, planned.inline with
  | .image, true => dependency.dataUri.toList
  | .script, true => "<script>\n".toList ++ dependency.text ++ "\n</script>".toList
  | .link, true =>
    "<style type=\"text/css\">\n".toList ++ dependency.text ++ "\n</style>".toList
  | .requireScript, _ | .requireStyle, _ => dependency.id.toList
  | _, _ => dependency.output.toList

/-- A relative path that is written so that it looks like one. -/
def dotted (path : String) : String :=
  if path.startsWith "." || path.startsWith "/" then path else "./" ++ path

/-- The path that leads from a template with the URI `own` to a resource. -/
def relativeAddress (own : String) (dependency : Resource) : String :=
  dotted (Path.relative (Path.dirname own) dependency.output)

/-- What the second pass writes for a directive of a template with the URI `own`: a path, and for
a widget its name and then its path as another attribute. -/
def relativeReplacement (own : String) (planned : Planned) (dependency : Resource) : Text :=
  let path := (relativeAddress own dependency).toList
  match planned.directive.kind with
  | .widget =>
    let quote := planned.directive.quote
    dependency.id.toList ++ quote :: " path=".toList ++ quote :: path
  | _ => path

end AssetLoom
