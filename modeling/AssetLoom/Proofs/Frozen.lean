import AssetLoom.Proofs.Conduct
import AssetLoom.Proofs.Depth
import AssetLoom.Proofs.Run
import AssetLoom.Proofs.Trail

/-!
# Compiled resources stay as they are

A resource that is compiled never changes again, neither within the operation that compiles it
nor in any later one, of whatever session (`compiled_frozen`). The compilers may ask for anything
as long as they write only to the resource that they compile (`Compiler.WritesOwn`), and this one
is not compiled before they are done.
-/

namespace AssetLoom

/-! ## What is compiled is kept -/

namespace Build

/-- What is compiled in the first build is the same in the second one. -/
def Keeps (a b : Build) : Prop :=
  ∀ path r, a.resources.get? path = some r → r.state = .compiled → b.resources.get? path = some r

namespace Keeps

theorem refl (build : Build) : Keeps build build := fun _ _ h _ => h

theorem trans {a b c : Build} (h : Keeps a b) (h' : Keeps b c) : Keeps a c :=
  fun path r hGet hState => h' path r (h path r hGet hState) hState

theorem of_resources {a b : Build} (h : b.resources = a.resources) : Keeps a b := by
  intro path r hGet _
  rwa [h]

/-- Only a resource that is not compiled changes. -/
theorem of_other {a b : Build} {path : String}
    (hState : a.resources.state? path ≠ some .compiled)
    (h : ∀ q, q ≠ path → b.resources.get? q = a.resources.get? q) : Keeps a b := by
  intro q r hGet hCompiled
  have hq : q ≠ path := by
    rintro rfl
    exact hState (Registry.state?_eq_some_iff.mpr ⟨r, hGet, hCompiled⟩)
  rw [h q hq, hGet]

theorem setUri {build : Build} {path : String}
    (hState : build.resources.state? path ≠ some .compiled) (uri : String) :
    Keeps build { build with resources := build.resources.setUri path uri } :=
  of_other hState fun q hq => by simp [Registry.get?_setUri, hq]

theorem setContent {build : Build} {path : String}
    (hState : build.resources.state? path ≠ some .compiled) (text : Text) :
    Keeps build { build with resources := build.resources.setContent path text } :=
  of_other hState fun q hq => by simp [Registry.get?_setContent, hq]

theorem enter {build : Build} {path : String}
    (hState : build.resources.state? path ≠ some .compiled) (kind : ResourceKind) :
    Keeps build (build.enter path kind) :=
  of_other hState fun q hq => by simp [Build.enter, Registry.get?_setState, hq]

theorem leave {build : Build} {path : String}
    (hState : build.resources.state? path ≠ some .compiled) (outcome : Outcome) :
    Keeps build (build.leave path outcome) :=
  of_other hState fun q hq => by simp [Build.leave, Registry.get?_setState, hq]

end Keeps

/-- Builds that all have the resources of the one before them. -/
theorem pairwise_keeps_of_resources {build : Build} {trail : List Build}
    (h : ∀ point ∈ trail, point.resources = build.resources) :
    (build :: trail).Pairwise Keeps := by
  have hAll : ∀ point ∈ build :: trail, point.resources = build.resources :=
    List.forall_mem_cons.mpr ⟨rfl, h⟩
  refine List.pairwise_iff_forall_sublist.mpr fun {a b} hPair => .of_resources ?_
  have hSubset := hPair.subset
  rw [hAll a (hSubset (by simp)), hAll b (hSubset (by simp))]

/-- One trail behind another. -/
theorem Walk.pairwise_append {a b : Build} {first second : List Build} (h : Walk a first b)
    (hFirst : (a :: first).Pairwise Keeps) (hSecond : (b :: second).Pairwise Keeps) :
    (a :: (first ++ second)).Pairwise Keeps := by
  induction h with
  | nil build => exact hSecond
  | @cons build next last trail hChange hWalk ih =>
    obtain ⟨hBuild, hTrail⟩ := List.pairwise_cons.mp hFirst
    have hRest := ih hTrail hSecond
    refine List.pairwise_cons.mpr ⟨?_, hRest⟩
    have hNext := hBuild next List.mem_cons_self
    intro point hPoint
    rcases List.mem_cons.mp hPoint with rfl | hLater
    · exact hNext
    · exact hNext.trans ((List.pairwise_cons.mp hRest).1 point hLater)

theorem pairwise_keeps_cons {a b : Build} {trail : List Build} (h : Keeps a b)
    (hTrail : (b :: trail).Pairwise Keeps) : (a :: b :: trail).Pairwise Keeps := by
  refine List.pairwise_cons.mpr ⟨?_, hTrail⟩
  intro point hPoint
  rcases List.mem_cons.mp hPoint with rfl | hLater
  · exact h
  · exact h.trans ((List.pairwise_cons.mp hTrail).1 point hLater)

end Build

namespace Session

open Build (Walk Keeps Balanced)

theorem resources_of_mem_notifyTrail {event : Event} {resource : Resource} {number : Nat}
    {observers : List Observer} {build point : Build}
    (h : point ∈ notifyTrail event resource number observers build) :
    point.resources = build.resources := by
  induction observers generalizing number build with
  | nil => simp [notifyTrail] at h
  | cons observer rest ih =>
    rw [notifyTrail] at h
    split at h
    · dsimp only at h
      split at h
      · rw [List.mem_singleton.mp h]
        rfl
      · rcases List.mem_cons.mp h with rfl | hLater
        · rfl
        · exact (ih hLater).trans rfl
    · exact ih h

theorem pairwise_emitTrail (session : Session) (event : Event) (path : String) (build : Build) :
    (build :: session.emitTrail event path build).Pairwise Keeps := by
  apply Build.pairwise_keeps_of_resources
  intro point hPoint
  unfold emitTrail at hPoint
  split at hPoint
  · cases hPoint
  · rcases List.mem_cons.mp hPoint with rfl | hLater
    · rfl
    · exact (resources_of_mem_notifyTrail hLater).trans rfl

theorem pairwise_resolveTrail (session : Session) {path : String} (rule : Option Rule)
    {build : Build} (hState : build.resources.state? path ≠ some .compiled) :
    (build :: session.resolveTrail path rule build).Pairwise Keeps := by
  have hFirst := pairwise_emitTrail session .preResolve path build
  have hSame := emit_resources session .preResolve path build
  refine (walk_emitTrail session .preResolve path build).pairwise_append hFirst ?_
  cases h : session.emit .preResolve path build with
  | mk outcome told =>
    rw [h] at hSame
    cases outcome with
    | error e => simp
    | ok =>
      cases hUri : uriBy rule path with
      | error e => simp
      | ok uri =>
        refine Build.pairwise_keeps_cons (.of_resources rfl) ?_
        exact Build.pairwise_keeps_cons (.setUri (hSame ▸ hState) uri) (pairwise_emitTrail ..)

/-! ## Along a trail -/

section

variable {compile : String → Option Rule → Build → Outcome × Build}
  {trail : String → Option Rule → Build → List Build}
  (hWalk : ∀ path rule build, Walk build (trail path rule build) (compile path rule build).2)
  (hKeeps : ∀ path rule build, (build :: trail path rule build).Pairwise Keeps)
include hKeeps

theorem pairwise_requireTrail (session : Session) (referrer target : String) (build : Build) :
    (build :: requireTrail trail session referrer target build).Pairwise Keeps := by
  unfold requireTrail
  split
  · simp
  · split
    · simp
    · dsimp only
      split
      · simp
      · exact Build.pairwise_keeps_cons (.of_resources rfl) (hKeeps ..)

include hWalk

theorem pairwise_eachTrail (session : Session) (paths : List String) (build : Build) :
    (build :: eachTrail compile trail session paths build).Pairwise Keeps := by
  induction paths generalizing build with
  | nil => simp [eachTrail]
  | cons path rest ih =>
    have hFirst := hWalk path (session.rules.find? path) build
    refine hFirst.pairwise_append (hKeeps ..) ?_
    cases compile path (session.rules.find? path) build with
    | mk outcome after =>
      cases outcome with
      | ok => exact ih after
      | error e => simp

/-- A request that writes to no compiled resource keeps what is compiled. -/
theorem pairwise_answerTrail (session : Session) {request : Request} {build : Build}
    (hWritten : ∀ path ∈ request.written?, build.resources.state? path ≠ some .compiled) :
    (build :: answerTrail compile trail session request build).Pairwise Keeps := by
  cases request with
  | lookUp path => simp [answerTrail]
  | emit event path => exact pairwise_emitTrail ..
  | compile path rule => exact hKeeps ..
  | compileRoot path => exact hKeeps ..
  | compileAll =>
    exact Build.pairwise_keeps_cons (.of_resources rfl) (pairwise_eachTrail hWalk hKeeps ..)
  | require referrer target => exact pairwise_requireTrail hKeeps ..
  | resolveUri path rule => exact pairwise_resolveTrail session rule (hWritten path rfl)
  | replaceContent path text =>
    simp only [answerTrail]
    split
    · simp
    · exact Build.pairwise_keeps_cons (.setContent (hWritten path rfl) text) (by simp)
  | countEdits pass path count => exact Build.pairwise_keeps_cons (.of_resources rfl) (by simp)

/-- A recipe that writes only to a resource that is being compiled keeps what is compiled: its
resource stays open whatever it asks for. -/
theorem pairwise_runTrail {α : Type} (session : Session) {path : String} {recipe : Recipe α}
    {build : Build}
    (hBalanced : ∀ path rule build, Balanced build (compile path rule build).2)
    (hWrites : recipe.WritesOnly path) (hOpen : build.resources.state? path = some .compiling) :
    (build :: runTrail compile trail session recipe build).Pairwise Keeps := by
  induction recipe generalizing build with
  | done result => simp [runTrail]
  | ask request next ih =>
    have hAnswer := answer_frame Build.balanced_isFrame hBalanced session request build
    refine (walk_answerTrail hWalk session request build).pairwise_append ?_ ?_
    · apply pairwise_answerTrail hWalk hKeeps
      intro written hMem
      simp [hWrites.1 written hMem, hOpen]
    · exact ih _ (hWrites.2 _) ((hAnswer.compiling_iff path).mpr hOpen)

end

/-- What is compiled is kept all along a compile, if the compilers write to their own resources
only. -/
theorem pairwise_compileTrailWithin {session : Session}
    (hOwn : ∀ kind, (session.compilers.forKind kind).WritesOwn) (depth : Nat) (path : String)
    (rule : Option Rule) (build : Build) :
    (build :: session.compileTrailWithin depth path rule build).Pairwise Keeps := by
  induction depth generalizing path rule build with
  | zero =>
    simp only [compileTrailWithin]
    repeat' split
    all_goals simp
  | succ depth ih =>
    simp only [compileTrailWithin]
    split
    · simp
    · next resource hGet =>
      split
      · simp
      · simp
      · next hPending =>
        have hState := Registry.state?_eq_some_iff.mpr ⟨resource, hGet, hPending⟩
        have hOpen := Build.state?_enter_self hState resource.kind
        have hBalanced := compileWithin_frame Build.balanced_isFrame session depth
        have hRun := run_frame Build.balanced_isFrame hBalanced session
          (session.compilers.forKind resource.kind session.options path rule).run
          (build.enter path resource.kind)
        have hWalk := fun path rule build => walk_compileTrailWithin session depth path rule build
        refine Build.pairwise_keeps_cons (.enter (by simp [hState]) _) ?_
        refine (walk_runTrail hWalk session _ _).pairwise_append
          (pairwise_runTrail hWalk ih session hBalanced (hOwn ..) hOpen) ?_
        refine Build.pairwise_keeps_cons (.leave ?_ _) (by simp)
        simp [(hRun.compiling_iff path).mpr hOpen]

/-! ## A compiled resource is left alone -/

theorem compile_of_compiled (session : Session) {path : String} (rule : Option Rule) {build : Build}
    (h : build.resources.state? path = some .compiled) :
    session.compile path rule build = (.ok (), build) := by
  obtain ⟨r, hGet, hState⟩ := Registry.state?_eq_some_iff.mp h
  simp only [compile_eq, hGet, hState]

theorem require_of_compiled (session : Session) (referrer : String) {path : String} {build : Build}
    (h : build.resources.state? path = some .compiled) :
    session.require referrer path build = (.ok (), build) := by
  obtain ⟨r, hGet, hState⟩ := Registry.state?_eq_some_iff.mp h
  simp [require, requireBy, hGet, Resource.isCompiled, hState]

end Session

/-! ## Operations of several sessions -/

/-- Something that is asked of a session. -/
structure Operation where
  session : Session
  request : Request

namespace Operation

/-- The build that an operation leads to. -/
def perform (operation : Operation) (build : Build) : Build :=
  (operation.session.answer operation.session.compile operation.request build).2

/-- The builds that an operation passes. -/
def trail (operation : Operation) (build : Build) : List Build :=
  Session.answerTrail operation.session.compile operation.session.compileTrail operation.session
    operation.request build

/-- The operation writes to no compiled resource, not counting what is compiled for it. -/
def Spares (operation : Operation) (build : Build) : Prop :=
  ∀ path ∈ operation.request.written?, build.resources.state? path ≠ some .compiled

/-- The build that some operations, one after the other, lead to. -/
def performAll (operations : List Operation) (build : Build) : Build :=
  operations.foldl (fun build operation => operation.perform build) build

/-- All builds that some operations pass. -/
def trailAll : List Operation → Build → List Build
  | [], _ => []
  | operation :: rest, build => operation.trail build ++ trailAll rest (operation.perform build)

/-- No operation writes to a resource that is compiled by then. -/
def SpareAll : List Operation → Build → Prop
  | [], _ => True
  | operation :: rest, build => operation.Spares build ∧ SpareAll rest (operation.perform build)

open Build (Walk Keeps)

theorem walk_trailAll (operations : List Operation) (build : Build) :
    Walk build (trailAll operations build) (performAll operations build) := by
  induction operations generalizing build with
  | nil => exact .nil build
  | cons operation rest ih =>
    have hFirst := Session.walk_answerTrail (fun path rule build =>
      Session.walk_compileTrailWithin operation.session build.resources.size path rule build)
      operation.session operation.request build
    exact hFirst.append (ih _)

theorem pairwise_trailAll {operations : List Operation} {build : Build}
    (hOwn : ∀ operation ∈ operations, ∀ kind,
      (operation.session.compilers.forKind kind).WritesOwn)
    (hSpare : SpareAll operations build) :
    (build :: trailAll operations build).Pairwise Keeps := by
  induction operations generalizing build with
  | nil => simp [trailAll]
  | cons operation rest ih =>
    obtain ⟨hFirst, hRest⟩ := List.forall_mem_cons.mp hOwn
    have hWalk : ∀ path rule build, Walk build (operation.session.compileTrail path rule build)
        (operation.session.compile path rule build).2 :=
      fun path rule build => Session.walk_compileTrailWithin ..
    have hFirstWalk :=
      Session.walk_answerTrail hWalk operation.session operation.request build
    refine hFirstWalk.pairwise_append ?_ (ih hRest hSpare.2)
    exact Session.pairwise_answerTrail hWalk
      (fun path rule build => Session.pairwise_compileTrailWithin hFirst ..) _ hSpare.1

/-- Whatever is asked of some sessions, one after the other, and whatever their compilers ask for
and ignore: a resource that is compiled at one point of the history is the same at every later one,
as long as no operation resolves the URI of a compiled resource and no compiler writes to another
resource than its own. To compile it again, or to require it, then succeeds in every session and
leaves the build as it is, the journal included. -/
theorem compiled_frozen (operations : List Operation) (start : Build)
    (hOwn : ∀ operation ∈ operations, ∀ kind,
      (operation.session.compilers.forKind kind).WritesOwn)
    (hSpare : SpareAll operations start) :
    Walk start (trailAll operations start) (performAll operations start) ∧
    (start :: trailAll operations start).Pairwise (fun earlier later => ∀ path r,
      earlier.resources.get? path = some r → r.state = .compiled →
        later.resources.get? path = some r) ∧
    ∀ point ∈ start :: trailAll operations start, ∀ path,
      point.resources.state? path = some .compiled → ∀ (session : Session) rule referrer,
        session.compile path rule point = (.ok (), point) ∧
        session.compileRoot path point = (.ok (), point) ∧
        session.require referrer path point = (.ok (), point) := by
  refine ⟨walk_trailAll operations start, pairwise_trailAll hOwn hSpare, ?_⟩
  intro point _ path hCompiled session rule referrer
  exact ⟨session.compile_of_compiled rule hCompiled, session.compile_of_compiled _ hCompiled,
    session.require_of_compiled referrer hCompiled⟩

/-- A template is compiled, an image is given a URI in another session, and a manifest that ignores
what fails compiles both of them, and a template that is missing. -/
theorem compiled_frozen_manifest :
    let start : Build := { resources :=
      { entries := [{ path := "a.tpl", kind := .template, content := "-".toUTF8 },
          { path := "b.png", kind := .image, content := .empty },
          { path := "list", kind := .other, content := "!a.tpl\n!c.tpl\nb.png".toUTF8 }]
        paths_nodup := by decide } }
    let other : Session := { compilers := { byKind := [(.other, manifestCompiler)] } }
    let operations : List Operation :=
      [⟨{}, .compileRoot "a.tpl"⟩, ⟨other, .resolveUri "b.png" none⟩, ⟨other, .compileRoot "list"⟩]
    (∀ path ∈ ["a.tpl", "b.png", "list"],
      (performAll operations start).resources.state? path = some .compiled) ∧
    (start :: trailAll operations start).Pairwise (fun earlier later => ∀ path r,
      earlier.resources.get? path = some r → r.state = .compiled →
        later.resources.get? path = some r) := by
  intro start other operations
  have hOwn : ∀ operation ∈ operations, ∀ kind,
      (operation.session.compilers.forKind kind).WritesOwn := by
    intro operation hMem kind
    have hAsset : Compiler.WritesOwn assetCompiler :=
      (Compilers.builtIn_default.tendsOwn .other).writesOwn
    simp only [operations, List.mem_cons, List.not_mem_nil, or_false] at hMem
    rcases hMem with rfl | rfl | rfl
    · exact (Compilers.builtIn_default.tendsOwn kind).writesOwn
    all_goals
      exact Compilers.writesOwn (by simp [other, tendsOwn_manifestCompiler.writesOwn]) hAsset kind
  have hImage : (Operation.perform ⟨{}, .compileRoot "a.tpl"⟩ start).resources.state? "b.png" ≠
      some .compiled := by decide +kernel
  have hSpare : SpareAll operations start :=
    ⟨nofun, by simpa [Spares, Request.written?] using hImage, nofun, trivial⟩
  exact ⟨by decide +kernel, (compiled_frozen operations start hOwn hSpare).2.1⟩

end Operation

end AssetLoom
