import AssetLoom.Compiler.Asset
import AssetLoom.Compiler.Template
import AssetLoom.Registry
/-!
# Build sessions

A session compiles resources, each at most once: a compile passes a gate that is open only while
the resource is pending. Compilers ask the session to compile what they depend on, so compiles are
nested; a resource that is reached again within its own compile closes a circle.

* `Build`: the registry, the open compiles and the journal.
* `Session.run`: carries out a recipe.
* `Session.compile`: the gate, and behind it the recipe of the compiler for the kind.

A compile that fails leaves its resource pending. What it has written stays written.
-/

namespace AssetLoom

/-- What a build has come to. -/
structure Build where
  resources : Registry := {}
  /-- The paths that are being compiled, the outermost first. -/
  stack : List String := []
  journal : Journal := []

namespace Build

/-- Writes down an entry. -/
def write (build : Build) (entry : Entry) : Build :=
  { build with journal := build.journal ++ [entry] }

/-- The circle that is closed when `path` is reached again. -/
def circle (build : Build) (path : String) : CompileError :=
  let inside := build.stack.dropWhile (· ≠ path)
  .cycle ((if inside = [] then build.stack else inside) ++ [path])

/-- Opens the compile of a resource. -/
def enter (build : Build) (path : String) (kind : ResourceKind) : Build :=
  { build with
    resources := build.resources.setState path .compiling
    stack := build.stack ++ [path]
    journal := build.journal ++ [.opened path kind] }

/-- Closes the compile of a resource. -/
def leave (build : Build) (path : String) (outcome : Outcome) : Build :=
  let state := match outcome with
    | .ok _ => .compiled
    | .error _ => .pending
  { build with resources := build.resources.setState path state, stack := build.stack.dropLast }

end Build

/-- The compilers of a session: those for certain kinds, and one for all others. -/
structure Compilers where
  byKind : List (ResourceKind × Compiler) := [(.template, templateCompiler)]
  fallback : Compiler := assetCompiler

namespace Compilers

/-- The compiler for a kind. -/
def forKind (compilers : Compilers) (kind : ResourceKind) : Compiler :=
  (compilers.byKind.lookup kind).getD compilers.fallback

/-- Uses a compiler for a kind. -/
def register (compilers : Compilers) (kind : ResourceKind) (compiler : Compiler) : Compilers :=
  { compilers with byKind := (kind, compiler) :: compilers.byKind.filter (·.1 ≠ kind) }

/-- The kinds that have a compiler of their own, as text. -/
def describe (compilers : Compilers) : String :=
  let kinds := compilers.byKind.map fun (kind, _) => kind.name.capitalize
  "CompilerRegistry \x7b kinds: [" ++ ", ".intercalate kinds ++ "], .. \x7d"

end Compilers

/-- What a build is carried out with. -/
structure Session where
  rules : RuleSet := []
  compilers : Compilers := {}
  /-- The observers in the order in which they are told of events. -/
  observers : List Observer := []
  options : CompileOptions := {}

namespace Session

/-- Tells observers of an event, the first of which has the given number, up to the first one that
fails. -/
def notify (event : Event) (resource : Resource) :
    Nat → List Observer → Build → Outcome × Build
  | _, [], build => (.ok (), build)
  | number, observer :: rest, build =>
    if observer.hears event then
      let told := build.write (.observed number event resource)
      match observer.react build.journal event resource with
      | some reason => (.error (.hook event resource.path reason), told)
      | none => notify event resource (number + 1) rest told
    else notify event resource (number + 1) rest build

/-- Emits an event of a resource. -/
def emit (session : Session) (event : Event) (path : String) (build : Build) : Outcome × Build :=
  match build.resources.get? path with
  | none => (.error (.unknownRoot path), build)
  | some resource =>
    notify event resource 0 session.observers (build.write (.emitted event resource.path))

/-- The output URI of a path by a rule; without a rule it is the path. -/
def uriBy (rule : Option Rule) (path : String) : Except CompileError String :=
  match rule with
  | some rule => rule.mapPath path
  | none => .ok path

/-- Resolves the output URI of a resource, between two events. -/
def resolveUri (session : Session) (path : String) (rule : Option Rule) (build : Build) :
    Outcome × Build :=
  match session.emit .preResolve path build with
  | (.error e, build) => (.error e, build)
  | (.ok _, build) =>
    match uriBy rule path with
    | .error e => (.error e, build)
    | .ok uri =>
      let build := build.write (.resolved path uri)
      session.emit .resolved path { build with resources := build.resources.setUri path uri }

/-- Compiles a resource that another one refers to, if it is not compiled yet; `compile` carries
the compile out. A destination that is no string is found before the compile starts. -/
def requireBy (session : Session) (compile : String → Option Rule → Build → Outcome × Build)
    (referrer target : String) (build : Build) : Outcome × Build :=
  match build.resources.get? target with
  | none => (.error (.unresolved target referrer), build)
  | some dependency =>
    if dependency.isCompiled then (.ok (), build)
    else
      let rule := session.rules.find? target
      match (rule.map Rule.destination).getD (.ok none) with
      | .error e => (.error e, build)
      | .ok _ => compile target rule (build.write (.reached referrer target))

/-- Compiles some resources by the rules that apply to them, one after the other, up to the first
failure; `compile` carries the compiles out. -/
def compileEachBy (session : Session)
    (compile : String → Option Rule → Build → Outcome × Build) :
    List String → Build → Outcome × Build
  | [], build => (.ok (), build)
  | path :: rest, build =>
    match compile path (session.rules.find? path) build with
    | (.ok _, build) => session.compileEachBy compile rest build
    | (.error e, build) => (.error e, build)

/-- The paths of all templates, in ascending order. -/
def templatePaths (registry : Registry) : List String :=
  registry.paths.filter fun path =>
    (registry.get? path).any (·.kind == .template)

/-- Compiles all templates in ascending order of their paths, up to the first failure; `compile`
carries the compiles out. -/
def compileAllBy (session : Session) (compile : String → Option Rule → Build → Outcome × Build)
    (build : Build) : Outcome × Build :=
  let roots := templatePaths build.resources
  session.compileEachBy compile roots (build.write (.roots roots.length))

/-- Replaces the content of a resource. -/
def replaceContent (path : String) (text : Text) (build : Build) : Outcome × Build :=
  match build.resources.get? path with
  | none => (.error (.unknownRoot path), build)
  | some _ => (.ok (), { build with resources := build.resources.setContent path text })

/-- Answers a request; `compile` carries out compiles. -/
def answer (session : Session) (compile : String → Option Rule → Build → Outcome × Build) :
    (request : Request) → Build → request.Answer × Build
  | .lookUp path, build => (build.resources.get? path, build)
  | .emit event path, build => session.emit event path build
  | .compile path rule, build => compile path rule build
  | .compileRoot path, build => compile path (session.rules.find? path) build
  | .compileAll, build => session.compileAllBy compile build
  | .require referrer target, build => session.requireBy compile referrer target build
  | .resolveUri path rule, build => session.resolveUri path rule build
  | .replaceContent path text, build => replaceContent path text build
  | .countEdits pass path count, build => ((), build.write (.edits pass path count))

/-- Carries out a recipe; `compile` carries out compiles. -/
def run (session : Session) (compile : String → Option Rule → Build → Outcome × Build)
    {α : Type} : Recipe α → Build → α × Build
  | .done result, build => (result, build)
  | .ask request next, build =>
    let (reply, build) := session.answer compile request build
    session.run compile (next reply) build

/-- Compiles a resource with at most `depth` compiles open at a time from here on. As each open
compile takes a resource that is pending, the number of resources is always enough, and at depth 0
no resource can be pending. -/
def compileWithin (session : Session) :
    (depth : Nat) → String → Option Rule → Build → Outcome × Build
  | depth, path, rule, build =>
    match build.resources.get? path with
    | none => (.error (.unknownRoot path), build)
    | some resource =>
      match resource.state with
      | .compiled => (.ok (), build)
      | .compiling => (.error (build.circle path), build)
      | .pending =>
        match depth with
        | 0 => (.error (build.circle path), build)
        | depth + 1 =>
          let recipe := session.compilers.forKind resource.kind session.options path rule
          let (outcome, build) :=
            session.run (session.compileWithin depth) recipe.run (build.enter path resource.kind)
          (outcome, build.leave path outcome)

/-- Compiles a resource by a given rule. -/
def compile (session : Session) (path : String) (rule : Option Rule) (build : Build) :
    Outcome × Build :=
  session.compileWithin build.resources.size path rule build

/-- Compiles a resource by the rule that applies to it. -/
def compileRoot (session : Session) (path : String) (build : Build) : Outcome × Build :=
  session.compile path (session.rules.find? path) build

/-- Compiles the resource `target` that is referred to in `referrer`. -/
def require (session : Session) (referrer target : String) (build : Build) : Outcome × Build :=
  session.requireBy session.compile referrer target build

/-- Compiles some resources, one after the other, up to the first failure. -/
def compileEach (session : Session) : List String → Build → Outcome × Build :=
  session.compileEachBy session.compile

/-- Compiles all templates in ascending order of their paths, up to the first failure. -/
def compileAll (session : Session) : Build → Outcome × Build :=
  session.compileAllBy session.compile

/-- The session and its open compiles as text. -/
def describe (session : Session) (build : Build) : String :=
  let quoted := build.stack.map fun path => "\"" ++ path ++ "\""
  "Session \x7b options: CompileOptions \x7b strip_comments: "
    ++ toString session.options.stripComments ++ " \x7d, stack: [" ++ ", ".intercalate quoted
    ++ "], hooks: Hooks \x7b observers: " ++ toString session.observers.length ++ " \x7d, .. \x7d"

end Session

end AssetLoom
