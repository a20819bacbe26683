import AssetLoom.Proofs.Gate

/-!
# The depth of nested compiles

Each open compile takes a resource that is not compiling yet (`Build.idle` counts them), so a
bound on the depth of nested compiles that is at least their number never matters
(`compileWithin_eq`). What a session does is therefore described without any bound:
`compile_eq` opens one compile, and the compiles within it are again those of the session. A
compile fails at the gate, or with the recipe behind it (`compile_eq_error`).
-/

namespace AssetLoom

/-- The number of resources that are not being compiled. -/
def Build.idle (build : Build) : Nat :=
  ((build.resources.entries.map Resource.path).filter fun path =>
    build.resources.state? path ≠ some .compiling).length

namespace Build

theorem idle_le_size (build : Build) : build.idle ≤ build.resources.size := by
  refine Nat.le_trans (List.length_filter_le ..) ?_
  simp [Registry.size]

theorem Balanced.idle_eq {before after : Build} (h : Balanced before after) :
    after.idle = before.idle := by
  unfold idle
  rw [h.paths_eq]
  congr 1
  apply List.filter_congr
  intro path _
  simp only [ne_eq, h.compiling_iff]

theorem mem_paths_of_state? {build : Build} {path : String} {state : CompileState}
    (h : build.resources.state? path = some state) :
    path ∈ build.resources.entries.map Resource.path :=
  Registry.isSome_state?_iff.mp (h ▸ rfl)

theorem idle_pos {build : Build} {path : String}
    (hPending : build.resources.state? path = some .pending) : 0 < build.idle := by
  apply List.length_pos_of_mem (a := path)
  simp [mem_paths_of_state? hPending, hPending]

/-- To open a compile takes one of the resources that were not being compiled. -/
theorem idle_enter_lt {build : Build} {path : String} (kind : ResourceKind)
    (hPending : build.resources.state? path = some .pending) :
    (build.enter path kind).idle < build.idle := by
  have hFilter : ((build.enter path kind).resources.entries.map Resource.path).filter
      (fun q => (build.enter path kind).resources.state? q ≠ some .compiling) =
      ((build.resources.entries.map Resource.path).filter fun q =>
        build.resources.state? q ≠ some .compiling).filter (· ≠ path) := by
    rw [List.filter_filter, enter, Registry.map_path_setState]
    apply List.filter_congr
    intro q _
    rw [Registry.state?_setState]
    by_cases hq : q = path
    · simp [hq, hPending]
    · simp [hq]
  rw [idle, hFilter, idle, List.length_filter_lt_length_iff_exists]
  refine ⟨path, ?_, by simp⟩
  simp [mem_paths_of_state? hPending, hPending]

end Build

namespace Session

variable {compile compile' : String → Option Rule → Build → Outcome × Build} {limit : Nat}

section

variable (hSame : ∀ path rule build, Build.idle build ≤ limit →
    compile path rule build = compile' path rule build)
  (hBalanced : ∀ path rule build, Build.Balanced build (compile path rule build).2)
include hSame

theorem requireBy_congr (session : Session) (referrer target : String) {build : Build}
    (hLimit : build.idle ≤ limit) :
    session.requireBy compile referrer target build =
      session.requireBy compile' referrer target build := by
  simp only [requireBy, hSame _ _ (build.write _) hLimit]

include hBalanced

theorem compileEachBy_congr (session : Session) (paths : List String) {build : Build}
    (hLimit : build.idle ≤ limit) :
    session.compileEachBy compile paths build = session.compileEachBy compile' paths build := by
  induction paths generalizing build with
  | nil => rfl
  | cons path rest ih =>
    have hFirst := hBalanced path (session.rules.find? path) build
    simp only [compileEachBy, ← hSame path (session.rules.find? path) build hLimit]
    cases h : compile path (session.rules.find? path) build with
    | mk outcome after =>
      rw [h] at hFirst
      cases outcome with
      | ok => exact ih (hFirst.idle_eq ▸ hLimit)
      | error e => rfl

theorem answer_congr (session : Session) (request : Request) {build : Build}
    (hLimit : build.idle ≤ limit) :
    session.answer compile request build = session.answer compile' request build := by
  cases request with
  | compile path rule => exact hSame path rule build hLimit
  | compileRoot path => exact hSame path _ build hLimit
  | compileAll =>
    have hWritten : (build.write (.roots (templatePaths build.resources).length)).idle ≤ limit :=
      hLimit
    exact compileEachBy_congr hSame hBalanced session _ hWritten
  | require referrer target => exact requireBy_congr hSame session referrer target hLimit
  | _ => rfl

/-- A recipe only sees what compiles do from builds with as few idle resources as its own. -/
theorem run_congr {α : Type} (session : Session) (recipe : Recipe α) {build : Build}
    (hLimit : build.idle ≤ limit) :
    session.run compile recipe build = session.run compile' recipe build := by
  induction recipe generalizing build with
  | done result => rfl
  | ask request next ih =>
    have hAnswer := answer_frame Build.balanced_isFrame hBalanced session request build
    simp only [run, ← answer_congr hSame hBalanced session request hLimit]
    exact ih _ (hAnswer.idle_eq ▸ hLimit)

end

/-- Two bounds on the depth make no difference if there are no more idle resources than either. -/
theorem compileWithin_eq (session : Session) {depth depth' : Nat} (path : String)
    (rule : Option Rule) {build : Build} (hDepth : build.idle ≤ depth)
    (hDepth' : build.idle ≤ depth') :
    session.compileWithin depth path rule build =
      session.compileWithin depth' path rule build := by
  induction depth generalizing depth' path rule build with
  | zero =>
    cases hGet : build.resources.get? path with
    | none => simp only [compileWithin, hGet]
    | some resource =>
      cases hState : resource.state with
      | compiled => simp only [compileWithin, hGet, hState]
      | compiling => simp only [compileWithin, hGet, hState]
      | pending =>
        have := Build.idle_pos (Registry.state?_eq_some_iff.mpr ⟨resource, hGet, hState⟩)
        omega
  | succ depth ih =>
    cases hGet : build.resources.get? path with
    | none => simp only [compileWithin, hGet]
    | some resource =>
      cases hState : resource.state with
      | compiled => simp only [compileWithin, hGet, hState]
      | compiling => simp only [compileWithin, hGet, hState]
      | pending =>
        have hLess := Build.idle_enter_lt resource.kind
          (Registry.state?_eq_some_iff.mpr ⟨resource, hGet, hState⟩)
        obtain ⟨depth', rfl⟩ : ∃ k, depth' = k + 1 := ⟨depth' - 1, by omega⟩
        have hRun : session.run (session.compileWithin depth)
            (session.compilers.forKind resource.kind session.options path rule).run
            (build.enter path resource.kind) = session.run (session.compileWithin depth')
            (session.compilers.forKind resource.kind session.options path rule).run
            (build.enter path resource.kind) := by
          refine run_congr ?_ (compileWithin_frame Build.balanced_isFrame session depth) session _
            (Nat.le_refl _)
          intro path rule inner hInner
          exact ih path rule (by omega) (by omega)
        simp only [compileWithin, hGet, hState, hRun]

/-- One compile: the gate, and behind it the recipe of the compiler, in which compiles are again
those of the session. -/
theorem compile_eq (session : Session) (path : String) (rule : Option Rule) (build : Build) :
    session.compile path rule build =
      match build.resources.get? path with
      | none => (.error (.unknownRoot path), build)
      | some resource =>
        match resource.state with
        | .compiled => (.ok (), build)
        | .compiling => (.error (build.circle path), build)
        | .pending =>
          let recipe := session.compilers.forKind resource.kind session.options path rule
          let (outcome, last) :=
            session.run session.compile recipe.run (build.enter path resource.kind)
          (outcome, last.leave path outcome) := by
  cases hGet : build.resources.get? path with
  | none => simp only [compile, compileWithin, hGet]
  | some resource =>
    cases hState : resource.state with
    | compiled => simp only [compile, compileWithin, hGet, hState]
    | compiling => simp only [compile, compileWithin, hGet, hState]
    | pending =>
      have hPending := Registry.state?_eq_some_iff.mpr ⟨resource, hGet, hState⟩
      have hLess := Build.idle_enter_lt resource.kind hPending
      have hSize := build.idle_le_size
      obtain ⟨depth, hDepth⟩ : ∃ depth, build.resources.size = depth + 1 :=
        ⟨build.resources.size - 1, by omega⟩
      have hRun : session.run (session.compileWithin depth)
          (session.compilers.forKind resource.kind session.options path rule).run
          (build.enter path resource.kind) = session.run session.compile
          (session.compilers.forKind resource.kind session.options path rule).run
          (build.enter path resource.kind) := by
        refine run_congr ?_ (compileWithin_frame Build.balanced_isFrame session depth) session _
          (Nat.le_refl _)
        intro path rule inner hInner
        exact session.compileWithin_eq path rule (by omega) inner.idle_le_size
      simp only [← hRun]
      simp only [compile, hDepth, compileWithin, hGet, hState]

/-- A compile fails at the gate, or the recipe behind it does. -/
theorem compile_eq_error {session : Session} {path : String} {rule : Option Rule}
    {build last : Build} {e : CompileError}
    (h : session.compile path rule build = (.error e, last)) :
    (build.resources.get? path = none ∧ e = .unknownRoot path ∧ last = build) ∨
      ∃ r, build.resources.get? path = some r ∧
        (r.state = .compiling ∧ e = build.circle path ∧ last = build ∨
          ∃ closing, r.state = .pending ∧ session.run session.compile
              (session.compilers.forKind r.kind session.options path rule).run
              (build.enter path r.kind) = (.error e, closing) ∧
            last = closing.leave path (.error e)) := by
  rw [compile_eq] at h
  split at h
  · next hMissing =>
    cases h
    exact .inl ⟨hMissing, rfl, rfl⟩
  · next r hGet =>
    refine .inr ⟨r, hGet, ?_⟩
    split at h
    · cases h
    · next hState =>
      cases h
      exact .inl ⟨hState, rfl, rfl⟩
    · next hState =>
      obtain ⟨hOutcome, rfl⟩ := Prod.mk.inj h
      exact .inr ⟨_, hState, Prod.ext hOutcome rfl, by rw [hOutcome]⟩

end Session

end AssetLoom
