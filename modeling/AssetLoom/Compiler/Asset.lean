import AssetLoom.Compiler.Recipe
/-!
# The compiler for assets

Scripts, styles, images and all that has no directives: the events are emitted and the URI is
resolved, the content is left alone.
-/

namespace AssetLoom

/-- Compiles a resource without directives. -/
def assetCompiler : Compiler := fun _ path rule => do
  Task.emit .preCompile path
  Task.emit .compiled path
  Task.resolveUri path rule

end AssetLoom
