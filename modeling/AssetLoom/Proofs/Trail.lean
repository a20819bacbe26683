import AssetLoom.Compiler.Manifest
import AssetLoom.Proofs.Gate

/-!
# What a build passes through

`Session.trail` lists every build that a session passes while it carries out a recipe, down to
the single changes within nested compiles. `walk_trail` ties it to the run itself: each build
of the list is one change away from the one before it, and the last one is where the run ends.

What every change keeps therefore holds at every point of a run. `gated_trail` says so of the
gate, for any recipe, any compilers and any observers.
-/

namespace AssetLoom

namespace Build

/-- The builds on the way from one build to another, each one change away from the one before. -/
inductive Walk : Build → List Build → Build → Prop
  | nil (build : Build) : Walk build [] build
  | cons {build next last : Build} {trail : List Build} :
      Change build next → Walk next trail last → Walk build (next :: trail) last

namespace Walk

theorem single {build next : Build} (h : Change build next) : Walk build [next] next :=
  .cons h (.nil next)

theorem append {a b c : Build} {first second : List Build} (h₁ : Walk a first b)
    (h₂ : Walk b second c) : Walk a (first ++ second) c := by
  induction h₁ with
  | nil build => exact h₂
  | cons hChange _ ih => exact .cons hChange (ih h₂)

/-- What every change keeps holds all along a walk. -/
theorem invariant {P : Build → Prop} {a b : Build} {trail : List Build}
    (hStep : ∀ {build next}, P build → Change build next → P next) (h : Walk a trail b)
    (ha : P a) : (∀ point ∈ a :: trail, P point) ∧ P b := by
  induction h with
  | nil build => exact ⟨by simpa using ha, ha⟩
  | cons hChange _ ih =>
    obtain ⟨hTrail, hLast⟩ := ih (hStep ha hChange)
    refine ⟨?_, hLast⟩
    intro point hPoint
    rcases List.mem_cons.mp hPoint with rfl | hRest
    · exact ha
    · exact hTrail point hRest

end Walk

end Build

namespace Session

/-! ## Trails -/

/-- The builds that are passed while observers are told of an event. -/
def notifyTrail (event : Event) (resource : Resource) : Nat → List Observer → Build → List Build
  | _, [], _ => []
  | number, observer :: rest, build =>
    if observer.hears event then
      let told := build.write (.observed number event resource)
      match observer.react build.journal event resource with
      | some _ => [told]
      | none => told :: notifyTrail event resource (number + 1) rest told
    else notifyTrail event resource (number + 1) rest build

/-- The builds that are passed while an event is emitted. -/
def emitTrail (session : Session) (event : Event) (path : String) (build : Build) : List Build :=
  match build.resources.get? path with
  | none => []
  | some resource =>
    let emitted := build.write (.emitted event resource.path)
    emitted :: notifyTrail event resource 0 session.observers emitted

/-- The builds that are passed while an output URI is resolved. -/
def resolveTrail (session : Session) (path : String) (rule : Option Rule) (build : Build) :
    List Build :=
  session.emitTrail .preResolve path build ++
    match session.emit .preResolve path build with
    | (.error _, _) => []
    | (.ok _, build) =>
      match uriBy rule path with
      | .error _ => []
      | .ok uri =>
        let written := build.write (.resolved path uri)
        let resolved := { written with resources := written.resources.setUri path uri }
        written :: resolved :: session.emitTrail .resolved path resolved

section

/-! `compile` carries compiles out, and `trail` lists the builds that it passes. -/

variable (compile : String → Option Rule → Build → Outcome × Build)
  (trail : String → Option Rule → Build → List Build)

/-- The builds that are passed while a dependency is compiled. -/
def requireTrail (session : Session) (referrer target : String) (build : Build) : List Build :=
  match build.resources.get? target with
  | none => []
  | some dependency =>
    if dependency.isCompiled then []
    else
      let rule := session.rules.find? target
      match (rule.map Rule.destination).getD (.ok none) with
      | .error _ => []
      | .ok _ =>
        let reached := build.write (.reached referrer target)
        reached :: trail target rule reached

/-- The builds that are passed while some resources are compiled. -/
def eachTrail (session : Session) : List String → Build → List Build
  | [], _ => []
  | path :: rest, build =>
    trail path (session.rules.find? path) build ++
      match compile path (session.rules.find? path) build with
      | (.ok _, build) => eachTrail session rest build
      | (.error _, _) => []

/-- The builds that are passed while a request is answered. -/
def answerTrail (session : Session) : Request → Build → List Build
  | .lookUp _, _ => []
  | .emit event path, build => session.emitTrail event path build
  | .compile path rule, build => trail path rule build
  | .compileRoot path, build => trail path (session.rules.find? path) build
  | .compileAll, build =>
    let roots := templatePaths build.resources
    let started := build.write (.roots roots.length)
    started :: eachTrail compile trail session roots started
  | .require referrer target, build => requireTrail trail session referrer target build
  | .resolveUri path rule, build => session.resolveTrail path rule build
  | .replaceContent path text, build =>
    match build.resources.get? path with
    | none => []
    | some _ => [{ build with resources := build.resources.setContent path text }]
  | .countEdits pass path count, build => [build.write (.edits pass path count)]

/-- The builds that are passed while a recipe is carried out. -/
def runTrail (session : Session) {α : Type} : Recipe α → Build → List Build
  | .done _, _ => []
  | .ask request next, build =>
    let (reply, after) := session.answer compile request build
    answerTrail compile trail session request build ++ runTrail session (next reply) after

end

/-- The builds that are passed by a compile with at most `depth` compiles open. -/
def compileTrailWithin (session : Session) :
    (depth : Nat) → String → Option Rule → Build → List Build
  | depth, path, rule, build =>
    match build.resources.get? path with
    | none => []
    | some resource =>
      match resource.state with
      | .compiled | .compiling => []
      | .pending =>
        match depth with
        | 0 => []
        | depth + 1 =>
          let recipe := session.compilers.forKind resource.kind session.options path rule
          let opened := build.enter path resource.kind
          let (outcome, closing) := session.run (session.compileWithin depth) recipe.run opened
          opened :: runTrail (session.compileWithin depth) (session.compileTrailWithin depth)
            session recipe.run opened ++ [closing.leave path outcome]

/-- The builds that are passed by a compile. -/
def compileTrail (session : Session) (path : String) (rule : Option Rule) (build : Build) :
    List Build :=
  session.compileTrailWithin build.resources.size path rule build

/-- All builds that a session passes after `build` while it carries out a recipe. -/
def trail (session : Session) {α : Type} (recipe : Recipe α) (build : Build) : List Build :=
  runTrail session.compile session.compileTrail session recipe build

/-! ## Trails are walks to the result -/

open Build (Walk Change)

theorem walk_notifyTrail (event : Event) (resource : Resource) (number : Nat)
    (observers : List Observer) (build : Build) :
    Walk build (notifyTrail event resource number observers build)
      (notify event resource number observers build).2 := by
  induction observers generalizing number build with
  | nil => exact .nil build
  | cons observer rest ih =>
    by_cases hHears : observer.hears event = true
    · cases hReact : observer.react build.journal event resource with
      | some reason =>
        simp only [notifyTrail, notify, hHears, hReact, if_true]
        exact .single (.write build _)
      | none =>
        simp only [notifyTrail, notify, hHears, hReact, if_true]
        exact .cons (.write build _) (ih _ _)
    · simp only [notifyTrail, notify, hHears]
      exact ih _ _

theorem walk_emitTrail (session : Session) (event : Event) (path : String) (build : Build) :
    Walk build (session.emitTrail event path build) (session.emit event path build).2 := by
  cases h : build.resources.get? path with
  | none =>
    simp only [emitTrail, emit, h]
    exact .nil build
  | some resource =>
    simp only [emitTrail, emit, h]
    exact .cons (.write build _) (walk_notifyTrail ..)

theorem walk_resolveTrail (session : Session) (path : String) (rule : Option Rule)
    (build : Build) :
    Walk build (session.resolveTrail path rule build) (session.resolveUri path rule build).2 := by
  have hFirst := walk_emitTrail session .preResolve path build
  cases h : session.emit .preResolve path build with
  | mk outcome told =>
    rw [h] at hFirst
    cases outcome with
    | error e => simpa only [resolveTrail, resolveUri, h, List.append_nil] using hFirst
    | ok =>
      cases hUri : uriBy rule path with
      | error e => simpa only [resolveTrail, resolveUri, h, hUri, List.append_nil] using hFirst
      | ok uri =>
        simp only [resolveTrail, resolveUri, h, hUri]
        exact hFirst.append
          (.cons (.write told _) (.cons (.setUri _ path uri) (walk_emitTrail ..)))

section

variable {compile : String → Option Rule → Build → Outcome × Build}
  {trail : String → Option Rule → Build → List Build}
  (hWalk : ∀ path rule build, Walk build (trail path rule build) (compile path rule build).2)
include hWalk

theorem walk_requireTrail (session : Session) (referrer target : String) (build : Build) :
    Walk build (requireTrail trail session referrer target build)
      (session.requireBy compile referrer target build).2 := by
  cases h : build.resources.get? target with
  | none =>
    simp only [requireTrail, requireBy, h]
    exact .nil build
  | some dependency =>
    by_cases hCompiled : dependency.isCompiled = true
    · simp only [requireTrail, requireBy, h, hCompiled, if_true]
      exact .nil build
    · cases hTarget : ((session.rules.find? target).map Rule.destination).getD (.ok none) with
      | error e =>
        simp only [requireTrail, requireBy, h, hCompiled, hTarget]
        exact .nil build
      | ok destination =>
        simp only [requireTrail, requireBy, h, hCompiled, hTarget]
        exact .cons (.write build _) (hWalk ..)

theorem walk_eachTrail (session : Session) (paths : List String) (build : Build) :
    Walk build (eachTrail compile trail session paths build)
      (session.compileEachBy compile paths build).2 := by
  induction paths generalizing build with
  | nil => exact .nil build
  | cons path rest ih =>
    have hFirst := hWalk path (session.rules.find? path) build
    cases h : compile path (session.rules.find? path) build with
    | mk outcome after =>
      rw [h] at hFirst
      cases outcome with
      | ok =>
        simp only [eachTrail, compileEachBy, h]
        exact hFirst.append (ih after)
      | error e => simpa only [eachTrail, compileEachBy, h, List.append_nil] using hFirst

theorem walk_answerTrail (session : Session) (request : Request) (build : Build) :
    Walk build (answerTrail compile trail session request build)
      (session.answer compile request build).2 := by
  cases request with
  | lookUp path => exact .nil build
  | emit event path => exact walk_emitTrail ..
  | compile path rule => exact hWalk ..
  | compileRoot path => exact hWalk ..
  | compileAll => exact .cons (.write build _) (walk_eachTrail hWalk ..)
  | require referrer target => exact walk_requireTrail hWalk ..
  | resolveUri path rule => exact walk_resolveTrail ..
  | replaceContent path text =>
    cases h : build.resources.get? path with
    | none =>
      simp only [answerTrail, answer, replaceContent, h]
      exact .nil build
    | some resource =>
      simp only [answerTrail, answer, replaceContent, h]
      exact .single (.setContent build path text)
  | countEdits pass path count => exact .single (.write build _)

theorem walk_runTrail {α : Type} (session : Session) (recipe : Recipe α) (build : Build) :
    Walk build (runTrail compile trail session recipe build)
      (session.run compile recipe build).2 := by
  induction recipe generalizing build with
  | done result => exact .nil build
  | ask request next ih => exact (walk_answerTrail hWalk ..).append (ih _ _)

end

theorem walk_compileTrailWithin (session : Session) (depth : Nat) (path : String)
    (rule : Option Rule) (build : Build) :
    Walk build (session.compileTrailWithin depth path rule build)
      (session.compileWithin depth path rule build).2 := by
  induction depth generalizing path rule build with
  | zero =>
    cases h : build.resources.get? path with
    | none =>
      simp only [compileTrailWithin, compileWithin, h]
      exact .nil build
    | some resource =>
      cases hState : resource.state <;> simp only [compileTrailWithin, compileWithin, h, hState] <;>
        exact .nil build
  | succ depth ih =>
    cases h : build.resources.get? path with
    | none =>
      simp only [compileTrailWithin, compileWithin, h]
      exact .nil build
    | some resource =>
      cases hState : resource.state with
      | compiled =>
        simp only [compileTrailWithin, compileWithin, h, hState]
        exact .nil build
      | compiling =>
        simp only [compileTrailWithin, compileWithin, h, hState]
        exact .nil build
      | pending =>
        simp only [compileTrailWithin, compileWithin, h, hState]
        have hPending := Registry.state?_eq_some_iff.mpr ⟨resource, h, hState⟩
        -- The recipe ends with the stack it started with, so `path` is innermost again.
        have hStack := (run_frame Build.balanced_isFrame
          (compileWithin_frame Build.balanced_isFrame session depth) session
          (session.compilers.forKind resource.kind session.options path rule).run
          (build.enter path resource.kind)).stack_eq
        exact .cons (.enter build path _ hPending)
          ((walk_runTrail ih ..).append (.single (.leave _ path _ build.stack hStack)))

/-- The trail of a recipe leads from its start to its result, one change at a time. -/
theorem walk_trail {α : Type} (session : Session) (recipe : Recipe α) (build : Build) :
    Walk build (session.trail recipe build) (session.run session.compile recipe build).2 :=
  walk_runTrail (fun path rule build => walk_compileTrailWithin session _ path rule build) ..

/-! ## The gate along a trail -/

open Build (Gated Balanced)

/-- The gate holds at every point of a run, and in its result. What is compiled when the run starts
is compiled all along. -/
theorem gated_trail {α : Type} {paths : List String} {build : Build} (session : Session)
    (recipe : Recipe α) (h : Gated paths build) :
    ∀ point ∈ build :: session.trail recipe build, Gated paths point ∧
      ∀ q, build.resources.state? q = some .compiled →
        point.resources.state? q = some .compiled :=
  ((walk_trail session recipe build).invariant
    (P := fun point => Gated paths point ∧ ∀ q, build.resources.state? q = some .compiled →
      point.resources.state? q = some .compiled)
    (fun hPoint hChange => ⟨hPoint.1.change hChange,
      fun q hq => hPoint.1.compiled_change hChange (hPoint.2 q hq)⟩)
    ⟨h, fun _ hq => hq⟩).1

/-- A compile leaves its resource in the state that its outcome tells, unless it is reached within
its own compile. -/
theorem state?_compile (session : Session) {path : String} (rule : Option Rule) {build : Build}
    (hPath : path ∈ build.resources.entries.map Resource.path)
    (hIdle : build.resources.state? path ≠ some .compiling) :
    (session.compile path rule build).2.resources.state? path =
      some (Build.stateAfter (session.compile path rule build).1) := by
  obtain ⟨resource, hMem, hResource⟩ := List.mem_map.mp hPath
  have hGet : build.resources.get? path = some resource :=
    Registry.get?_eq_some_iff.mpr ⟨hMem, hResource⟩
  obtain ⟨depth, hDepth⟩ : ∃ depth, build.resources.size = depth + 1 :=
    Nat.exists_eq_succ_of_ne_zero (Nat.pos_iff_ne_zero.mp (List.length_pos_of_mem hMem))
  cases hState : resource.state with
  | compiling => exact absurd (Registry.state?_eq_some_iff.mpr ⟨resource, hGet, hState⟩) hIdle
  | compiled =>
    simp only [compile, hDepth, compileWithin, hGet, hState]
    exact Registry.state?_eq_some_iff.mpr ⟨resource, hGet, hState⟩
  | pending =>
    simp only [compile, hDepth, compileWithin, hGet, hState]
    have hBalanced := run_frame Build.balanced_isFrame
      (compileWithin_frame Build.balanced_isFrame session depth) session
      (session.compilers.forKind resource.kind session.options path rule).run
      (build.enter path resource.kind)
    have hSome : ((session.run (session.compileWithin depth)
        (session.compilers.forKind resource.kind session.options path rule).run
        (build.enter path resource.kind)).2.resources.state? path).isSome := by
      rw [Registry.isSome_state?_iff, hBalanced.paths_eq]
      exact (Registry.map_path_setState ..).symm ▸ hPath
    obtain ⟨state, hAfter⟩ := Option.isSome_iff_exists.mp hSome
    rw [Build.state?_leave, if_pos rfl, hAfter]
    rfl

/-- Whatever a program asks of a session, and whatever its compilers and observers do: at every
point of the run, from one change to the next, a resource is compiling exactly if its path is on
the stack, which holds no path twice, and the registered paths stay the same. A compile that is
then started with nothing open ends with nothing open; its resource is compiled if it succeeds and
pending if it fails, and what was compiled before still is. -/
theorem gate_throughout {α : Type} (session : Session) (program : Recipe α) (start : Build)
    (hStack : start.stack = [])
    (hIdle : ∀ path, start.resources.state? path ≠ some .compiling) :
    Walk start (session.trail program start) (session.run session.compile program start).2 ∧
    (∀ point ∈ start :: session.trail program start,
      (∀ path, point.resources.state? path = some .compiling ↔ path ∈ point.stack) ∧
      point.stack.Nodup ∧
      point.resources.entries.map Resource.path = start.resources.entries.map Resource.path) ∧
    ∀ path ∈ start.resources.entries.map Resource.path, ∀ rule outcome before after,
      before = (session.run session.compile program start).2 →
      session.compile path rule before = (outcome, after) →
      after.stack = [] ∧
      (∀ q, after.resources.state? q ≠ some .compiling) ∧
      (outcome = .ok () → after.resources.state? path = some .compiled) ∧
      (∀ e, outcome = .error e → after.resources.state? path = some .pending) ∧
      ∀ q, before.resources.state? q = some .compiled →
        after.resources.state? q = some .compiled := by
  have hStart := Gated.of_idle hStack hIdle
  refine ⟨walk_trail session program start, ?_, ?_⟩
  · intro point hPoint
    obtain ⟨hGated, -⟩ := gated_trail session program hStart point hPoint
    exact ⟨hGated.compiling_iff, hGated.nodup, hGated.paths_eq⟩
  · rintro path hPath rule outcome before after rfl hCompile
    have hRun := run_frame Build.balanced_isFrame (compile_frame Build.balanced_isFrame session)
      session program start
    have hAfter := compile_frame Build.balanced_isFrame session path rule
      (session.run session.compile program start).2
    have hState := state?_compile session rule (hRun.paths_eq ▸ hPath)
      (fun h => hIdle path ((hRun.compiling_iff path).mp h))
    rw [hCompile] at hAfter hState
    refine ⟨?_, ?_, ?_, ?_, hAfter.compiled⟩
    · rw [hAfter.stack_eq, hRun.stack_eq, hStack]
    · intro q h
      exact hIdle q ((hRun.compiling_iff q).mp ((hAfter.compiling_iff q).mp h))
    · rintro rfl
      exact hState
    · rintro e rfl
      exact hState

/-- Two manifests that name each other, the first of which ignores that the second one fails. -/
theorem gate_throughout_manifests :
    let start : Build := { resources :=
      { entries := [{ path := "a", kind := .other, content := "!b".toUTF8 },
          { path := "b", kind := .other, content := "a".toUTF8 }] } }
    let session : Session := { compilers := { fallback := manifestCompiler } }
    let program : Recipe Outcome := .ask (.compileRoot "a") .done
    start.stack = [] ∧ (∀ path, start.resources.state? path ≠ some .compiling) ∧
      ∀ point ∈ start :: session.trail program start,
        ∀ path, point.resources.state? path = some .compiling ↔ path ∈ point.stack := by
  intro start session program
  have hStack : start.stack = [] := rfl
  have hIdle : ∀ path, start.resources.state? path ≠ some .compiling := by
    intro path h
    obtain ⟨r, hGet, hState⟩ := Registry.state?_eq_some_iff.mp h
    have hMem := (Registry.get?_eq_some_iff.mp hGet).1
    simp only [start, List.mem_cons, List.not_mem_nil, or_false] at hMem
    rcases hMem with rfl | rfl <;> cases hState
  exact ⟨hStack, hIdle, fun point hPoint =>
    ((gate_throughout session program start hStack hIdle).2.1 point hPoint).1⟩

end Session

end AssetLoom
