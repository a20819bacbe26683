import AssetLoom.Session

/-!
# The gate of a compile

A resource is compiling exactly as long as its path is on the stack of open compiles. This holds
after every single change that a build can go through (`Gated.change`), and a change never makes
a compiled resource anything else (`Gated.compiled_change`).

What a session does as a whole is described by `IsFrame`: a relation between two builds that holds
across every change, and across a nested compile if it holds within it, holds across everything
that a session does (`Session.compileWithin_frame`), whatever its compilers ask for.
`Balanced` is the first such relation: the same compiles are open before and after.
-/

namespace AssetLoom

namespace Registry

/-- The compile state of the resource registered for a path. -/
def state? (registry : Registry) (path : String) : Option CompileState :=
  (registry.get? path).map Resource.state

theorem state?_eq_some_iff {registry : Registry} {path : String} {state : CompileState} :
    registry.state? path = some state ↔ ∃ r, registry.get? path = some r ∧ r.state = state := by
  simp [state?]

theorem isSome_state?_iff {registry : Registry} {path : String} :
    (registry.state? path).isSome ↔ path ∈ registry.entries.map Resource.path := by
  rw [← Decidable.not_iff_not, ← get?_eq_none_iff]
  simp [state?]

theorem state?_setState (registry : Registry) (path : String) (state : CompileState)
    (q : String) : (registry.setState path state).state? q =
      if q = path then (registry.state? q).map fun _ => state else registry.state? q := by
  rw [state?, get?_setState]
  split
  · simp [state?, Function.comp_def]
  · rfl

@[simp]
theorem state?_setUri (registry : Registry) (path uri q : String) :
    (registry.setUri path uri).state? q = registry.state? q := by
  rw [state?, get?_setUri]
  split
  · simp [state?, Function.comp_def]
  · rfl

@[simp]
theorem state?_setContent (registry : Registry) (path : String) (text : Text) (q : String) :
    (registry.setContent path text).state? q = registry.state? q := by
  rw [state?, get?_setContent]
  split
  · simp [state?, Function.comp_def]
  · rfl

end Registry

namespace Build

/-! ## Changes -/

/-- One change of a build. Only a pending resource is entered, and only the innermost of the open
compiles is left. -/
inductive Change : Build → Build → Prop
  | write (build : Build) (entry : Entry) : Change build (build.write entry)
  | setUri (build : Build) (path uri : String) :
      Change build { build with resources := build.resources.setUri path uri }
  | setContent (build : Build) (path : String) (text : Text) :
      Change build { build with resources := build.resources.setContent path text }
  | enter (build : Build) (path : String) (kind : ResourceKind)
      (hPending : build.resources.state? path = some .pending) :
      Change build (build.enter path kind)
  | leave (build : Build) (path : String) (outcome : Outcome) (outer : List String)
      (hTop : build.stack = outer ++ [path]) : Change build (build.leave path outcome)

/-- The state that a compile leaves its resource in. -/
def stateAfter : Outcome → CompileState
  | .ok _ => .compiled
  | .error _ => .pending

theorem state?_enter (build : Build) (path : String) (kind : ResourceKind) (q : String) :
    (build.enter path kind).resources.state? q =
      if q = path then (build.resources.state? q).map fun _ => .compiling
      else build.resources.state? q :=
  Registry.state?_setState ..

theorem state?_enter_self {build : Build} {path : String}
    (hPending : build.resources.state? path = some .pending) (kind : ResourceKind) :
    (build.enter path kind).resources.state? path = some .compiling := by
  rw [state?_enter, if_pos rfl, hPending]
  rfl

theorem state?_leave (build : Build) (path : String) (outcome : Outcome) (q : String) :
    (build.leave path outcome).resources.state? q =
      if q = path then (build.resources.state? q).map fun _ => stateAfter outcome
      else build.resources.state? q := by
  cases outcome <;> exact Registry.state?_setState ..

/-- A resource is compiling exactly if it is on the stack, nothing is on the stack twice, and the
registered paths are the given ones. -/
structure Gated (paths : List String) (build : Build) : Prop where
  compiling_iff : ∀ path, build.resources.state? path = some .compiling ↔ path ∈ build.stack
  nodup : build.stack.Nodup
  paths_eq : build.resources.entries.map Resource.path = paths

/-- A build in which nothing is open passes the gate. -/
theorem Gated.of_idle {build : Build} (hStack : build.stack = [])
    (hIdle : ∀ path, build.resources.state? path ≠ some .compiling) :
    Gated (build.resources.entries.map Resource.path) build where
  compiling_iff path := by simp [hStack, hIdle]
  nodup := by simp [hStack]
  paths_eq := rfl

theorem stateAfter_ne_compiling (outcome : Outcome) : stateAfter outcome ≠ .compiling := by
  cases outcome <;> simp [stateAfter]

/-- The gate holds after every change. -/
theorem Gated.change {paths : List String} {build next : Build} (h : Gated paths build)
    (hChange : Change build next) : Gated paths next := by
  cases hChange with
  | write entry => exact ⟨h.compiling_iff, h.nodup, h.paths_eq⟩
  | setUri path uri =>
    exact ⟨by simpa using h.compiling_iff, h.nodup, (Registry.map_path_setUri ..).trans h.paths_eq⟩
  | setContent path text =>
    exact ⟨by simpa using h.compiling_iff, h.nodup,
      (Registry.map_path_setContent ..).trans h.paths_eq⟩
  | enter path kind hPending =>
    have hFresh : path ∉ build.stack := by
      rw [← h.compiling_iff, hPending]
      simp
    refine ⟨?_, ?_, (Registry.map_path_setState ..).trans h.paths_eq⟩
    · intro q
      rw [state?_enter]
      by_cases hq : q = path
      · simp [hq, hPending, enter]
      · simp [hq, h.compiling_iff, enter]
    · rw [enter, List.nodup_append]
      refine ⟨h.nodup, by simp, ?_⟩
      intro q hq last hLast hEq
      rw [List.mem_singleton] at hLast
      exact hFresh (hLast ▸ hEq ▸ hq)
  | leave path outcome outer hTop =>
    have hStack : (build.leave path outcome).stack = outer := by simp [leave, hTop]
    have hNodup := h.nodup
    rw [hTop, List.nodup_append] at hNodup
    refine ⟨?_, hStack ▸ hNodup.1, (Registry.map_path_setState ..).trans h.paths_eq⟩
    intro q
    rw [hStack, state?_leave]
    by_cases hq : q = path
    · have hOuter : q ∉ outer := fun hMem => hNodup.2.2 q hMem path (by simp) hq
      simp [hq, stateAfter_ne_compiling, hq ▸ hOuter]
    · simp [hq, h.compiling_iff, hTop]

/-- No change makes a compiled resource anything else. -/
theorem Gated.compiled_change {paths : List String} {build next : Build} (h : Gated paths build)
    (hChange : Change build next) {q : String}
    (hCompiled : build.resources.state? q = some .compiled) :
    next.resources.state? q = some .compiled := by
  cases hChange with
  | write entry => exact hCompiled
  | setUri path uri => simpa using hCompiled
  | setContent path text => simpa using hCompiled
  | enter path kind hPending =>
    have hq : q ≠ path := by
      rintro rfl
      simp [hPending] at hCompiled
    rw [state?_enter, if_neg hq, hCompiled]
  | leave path outcome outer hTop =>
    have hq : q ≠ path := by
      rintro rfl
      have := (h.compiling_iff q).mpr (by simp [hTop])
      simp [this] at hCompiled
    rw [state?_leave, if_neg hq, hCompiled]

/-! ## Frames -/

/-- A relation that holds across every change of a build, and across a compile if it holds between
its opening and its end. -/
structure IsFrame (R : Build → Build → Prop) : Prop where
  refl : ∀ build, R build build
  trans : ∀ {a b c}, R a b → R b c → R a c
  write : ∀ build entry, R build (build.write entry)
  setUri : ∀ build path uri,
    R build { build with resources := build.resources.setUri path uri }
  setContent : ∀ build path text,
    R build { build with resources := build.resources.setContent path text }
  nest : ∀ {build last path kind outcome}, build.resources.state? path = some .pending →
    R (build.enter path kind) last → R build (last.leave path outcome)

/-- The same compiles are open, the same resources are registered, and what was compiled still
is. -/
structure Balanced (before after : Build) : Prop where
  stack_eq : after.stack = before.stack
  paths_eq : after.resources.entries.map Resource.path =
    before.resources.entries.map Resource.path
  compiling_iff : ∀ path, after.resources.state? path = some .compiling ↔
    before.resources.state? path = some .compiling
  compiled : ∀ path, before.resources.state? path = some .compiled →
    after.resources.state? path = some .compiled

theorem balanced_isFrame : IsFrame Balanced where
  refl build := ⟨rfl, rfl, fun _ => Iff.rfl, fun _ h => h⟩
  trans h₁ h₂ := ⟨h₂.stack_eq.trans h₁.stack_eq, h₂.paths_eq.trans h₁.paths_eq,
    fun path => (h₂.compiling_iff path).trans (h₁.compiling_iff path),
    fun path h => h₂.compiled path (h₁.compiled path h)⟩
  write build entry := ⟨rfl, rfl, fun _ => Iff.rfl, fun _ h => h⟩
  setUri build path uri := ⟨rfl, Registry.map_path_setUri .., by simp, by simp⟩
  setContent build path text := ⟨rfl, Registry.map_path_setContent .., by simp, by simp⟩
  nest := by
    intro build last path kind outcome hPending h
    refine ⟨?_, ?_, ?_, ?_⟩
    · simp [leave, h.stack_eq, enter]
    · exact (Registry.map_path_setState ..).trans
        (h.paths_eq.trans (Registry.map_path_setState ..))
    · intro q
      rw [state?_leave]
      by_cases hq : q = path
      · simp [hq, stateAfter_ne_compiling, hPending]
      · rw [if_neg hq, h.compiling_iff, state?_enter, if_neg hq]
    · intro q hCompiled
      have hq : q ≠ path := by
        rintro rfl
        simp [hPending] at hCompiled
      rw [state?_leave, if_neg hq]
      apply h.compiled
      rw [state?_enter, if_neg hq, hCompiled]

theorem Gated.of_balanced {paths : List String} {before after : Build} (h : Gated paths before)
    (hBalanced : Balanced before after) : Gated paths after where
  compiling_iff path := by
    rw [hBalanced.compiling_iff, h.compiling_iff, hBalanced.stack_eq]
  nodup := hBalanced.stack_eq ▸ h.nodup
  paths_eq := hBalanced.paths_eq.trans h.paths_eq

theorem Balanced.isSome_get? {before after : Build} (h : Balanced before after) {path : String}
    (hGet : (before.resources.get? path).isSome) : (after.resources.get? path).isSome := by
  rw [Option.isSome_iff_ne_none, ne_eq, Registry.get?_eq_none_iff] at hGet ⊢
  rw [h.paths_eq]
  exact hGet

end Build

namespace Session

variable {R : Build → Build → Prop} (hR : Build.IsFrame R)
include hR

theorem notify_frame (event : Event) (resource : Resource) (number : Nat)
    (observers : List Observer) (build : Build) :
    R build (notify event resource number observers build).2 := by
  induction observers generalizing number build with
  | nil => exact hR.refl build
  | cons observer rest ih =>
    unfold notify
    split
    · dsimp only
      split
      · exact hR.write build _
      · exact hR.trans (hR.write build _) (ih _ _)
    · exact ih _ _

theorem emit_frame (session : Session) (event : Event) (path : String) (build : Build) :
    R build (session.emit event path build).2 := by
  unfold emit
  split
  · exact hR.refl build
  · exact hR.trans (hR.write build _) (notify_frame hR ..)

theorem resolveUri_frame (session : Session) (path : String) (rule : Option Rule)
    (build : Build) : R build (session.resolveUri path rule build).2 := by
  have hFirst := emit_frame hR session .preResolve path build
  unfold resolveUri
  split
  · next h => rwa [h] at hFirst
  · next told h =>
    rw [h] at hFirst
    split
    · exact hFirst
    · exact hR.trans hFirst (hR.trans (hR.write _ _)
        (hR.trans (hR.setUri _ _ _) (emit_frame hR ..)))

theorem replaceContent_frame (path : String) (text : Text) (build : Build) :
    R build (replaceContent path text build).2 := by
  unfold replaceContent
  split
  · exact hR.refl build
  · exact hR.setContent build path text

section

variable {compile : String → Option Rule → Build → Outcome × Build}
  (hCompile : ∀ path rule build, R build (compile path rule build).2)
include hCompile

theorem requireBy_frame (session : Session) (referrer target : String) (build : Build) :
    R build (session.requireBy compile referrer target build).2 := by
  unfold requireBy
  split
  · exact hR.refl build
  · split
    · exact hR.refl build
    · dsimp only
      split
      · exact hR.refl build
      · exact hR.trans (hR.write build _) (hCompile ..)

theorem compileEachBy_frame (session : Session) (paths : List String) (build : Build) :
    R build (session.compileEachBy compile paths build).2 := by
  induction paths generalizing build with
  | nil => exact hR.refl build
  | cons path rest ih =>
    have hFirst := hCompile path (session.rules.find? path) build
    unfold compileEachBy
    split
    · next h =>
      rw [h] at hFirst
      exact hR.trans hFirst (ih _)
    · next h => rwa [h] at hFirst

theorem answer_frame (session : Session) (request : Request) (build : Build) :
    R build (session.answer compile request build).2 := by
  cases request with
  | lookUp path => exact hR.refl build
  | emit event path => exact emit_frame hR ..
  | compile path rule => exact hCompile ..
  | compileRoot path => exact hCompile ..
  | compileAll => exact hR.trans (hR.write build _) (compileEachBy_frame hR hCompile ..)
  | require referrer target => exact requireBy_frame hR hCompile ..
  | resolveUri path rule => exact resolveUri_frame hR ..
  | replaceContent path text => exact replaceContent_frame hR ..
  | countEdits pass path count => exact hR.write build _

theorem run_frame {α : Type} (session : Session) (recipe : Recipe α) (build : Build) :
    R build (session.run compile recipe build).2 := by
  induction recipe generalizing build with
  | done result => exact hR.refl build
  | ask request next ih => exact hR.trans (answer_frame hR hCompile ..) (ih _ _)

end

/-- A frame holds across every compile, whatever the recipe of its compiler. -/
theorem compileWithin_frame (session : Session) (depth : Nat) (path : String)
    (rule : Option Rule) (build : Build) :
    R build (session.compileWithin depth path rule build).2 := by
  induction depth generalizing path rule build with
  | zero =>
    simp only [compileWithin]
    repeat' split
    all_goals exact hR.refl build
  | succ depth ih =>
    simp only [compileWithin]
    split
    · exact hR.refl build
    · next resource hResource =>
      split
      · exact hR.refl build
      · exact hR.refl build
      · next hState =>
        exact hR.nest (Registry.state?_eq_some_iff.mpr ⟨resource, hResource, hState⟩)
          (run_frame hR ih ..)

theorem compile_frame (session : Session) (path : String) (rule : Option Rule) (build : Build) :
    R build (session.compile path rule build).2 :=
  compileWithin_frame hR ..

end Session

end AssetLoom
