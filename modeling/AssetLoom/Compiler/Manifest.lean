import AssetLoom.Compiler.Recipe
/-!
# The compiler for manifests

A manifest names one resource a line. Each one is compiled before the manifest is complete. Behind
an exclamation mark stands a resource whose failure does not matter.
-/

namespace AssetLoom

/-- Compiles the resource that a line of the manifest `path` names. -/
def compileManifestLine (path : String) : Text → Task Unit
  | [] => pure ()
  | '!' :: key => tryCatch (Task.compileRoot (String.ofList key)) fun _ => pure ()
  | key => Task.require path (String.ofList key)

/-- Compiles the resources of some lines, one after the other. -/
def compileManifestLines (path : String) : List Text → Task Unit
  | [] => pure ()
  | line :: rest => do
    compileManifestLine path line
    compileManifestLines path rest

/-- Compiles a manifest. -/
def manifestCompiler : Compiler := fun _ path rule => do
  Task.emit .preCompile path
  let resource ← Task.fetch path
  compileManifestLines path (resource.text.splitOn '\n')
  Task.emit .compiled path
  Task.resolveUri path rule

end AssetLoom
