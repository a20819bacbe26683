import AssetLoom.Compiler.Plan
import AssetLoom.Compiler.Recipe
import AssetLoom.Directive.Comment
/-!
# The compiler for templates

The text of a template is changed in two passes around the resolution of its URI:

1. `preCompile` is emitted; embeds and requires are replaced;
2. `compiled` is emitted; the URI is resolved;
3. includes, extends and widgets are replaced by paths relative to that URI.

A pass compiles each resource it needs before it reads it, and writes nothing before all its edits
are known. The text of a permanent template is left alone.
-/

namespace AssetLoom

/-- Compiles the resources that are planned for the template `path`, one after the other, and
collects the edits. -/
def collectEdits (path : String) (replacement : Planned → Resource → Text) :
    List Planned → Task (List Edit)
  | [] => pure []
  | planned :: rest => do
    Task.require path planned.key
    let dependency ← Task.fetch planned.key
    let edits ← collectEdits path replacement rest
    return ⟨planned.region, replacement planned dependency⟩ :: edits

/-- The text that is searched for directives. -/
def searchedText (options : CompileOptions) (t : Text) : Text :=
  if options.stripComments then Directive.stripComments t else t

/-- Replaces embeds and requires. -/
def identityPass (options : CompileOptions) (path : String) : Task Unit := do
  let resource ← Task.fetch path
  let before := resource.text
  let searched := searchedText options before
  let edits ← collectEdits path identityReplacement (plan searched .identity path)
  Task.countEdits .identity path edits.length
  let output := applyEdits searched edits
  if output ≠ before then Task.replaceContent path output

/-- Replaces includes, extends and widgets. -/
def relativePass (path : String) : Task Unit := do
  let resource ← Task.fetch path
  let before := resource.text
  let own := resource.uri.getD path
  let edits ← collectEdits path (relativeReplacement own) (plan before .relative path)
  if edits ≠ [] then
    Task.countEdits .relative path edits.length
    Task.replaceContent path (applyEdits before edits)

/-- Compiles a template. -/
def templateCompiler : Compiler := fun options path rule => do
  Task.emit .preCompile path
  let resource ← Task.fetch path
  if !resource.permanent then identityPass options path
  Task.emit .compiled path
  Task.resolveUri path rule
  if !resource.permanent then relativePass path

end AssetLoom
