import AssetLoom.Proofs.Depth

/-!
# Every compile comes to an end

`Session.compileWithin` is given a bound on the depth of nested compiles. `Session.Ends` describes
the same work without any bound: a derivation of it is a run that is finite, and its first index is
the number of compiles that are open at a time in it.

Each open compile takes a resource that is not compiling yet, and gives it back at its end, whether
it fails or not. Neither the texts nor the pending resources have to become fewer, so compilers may
ignore failures and ask for the same resource again.

* `Ends.perform_eq`: any bound that is at least the depth gives the same result.
* `Ends.depth_le`: no more compiles are open at a time than there are idle resources.
* `compile_ends`: every compile, by any compilers, has such a run.
-/

namespace AssetLoom

/-- Something that a session has to do. -/
inductive Work
  | compile (path : String) (rule : Option Rule)
  /-- Resources are compiled by the rules that apply to them, up to the first failure. -/
  | each (paths : List String)
  | carry (recipe : Recipe Outcome)

namespace Session

/-- The recipe starts with a request for which other work has to be done first, from the given
build on. With the outcome of that work it goes on. -/
inductive Calls (session : Session) :
    Recipe Outcome → Build → Work → Build → (Outcome → Recipe Outcome) → Prop
  | compile (path : String) (rule : Option Rule) (next : Outcome → Recipe Outcome)
      (build : Build) :
      Calls session (.ask (.compile path rule) next) build (.compile path rule) build next
  | compileRoot (path : String) (next : Outcome → Recipe Outcome) (build : Build) :
      Calls session (.ask (.compileRoot path) next) build
        (.compile path (session.rules.find? path)) build next
  | compileAll (next : Outcome → Recipe Outcome) (build : Build) :
      Calls session (.ask .compileAll next) build (.each (templatePaths build.resources))
        (build.write (.roots (templatePaths build.resources).length)) next
  /-- A dependency that is not compiled yet, and whose destination is well formed. -/
  | require (referrer : String) {target : String} (next : Outcome → Recipe Outcome)
      {build : Build} {dependency : Resource} {destination : Option String}
      (hGet : build.resources.get? target = some dependency)
      (hState : dependency.isCompiled = false)
      (hTarget : ((session.rules.find? target).map Rule.destination).getD (.ok none) =
        .ok destination) :
      Calls session (.ask (.require referrer target) next) build
        (.compile target (session.rules.find? target)) (build.write (.reached referrer target)) next

/-- How work comes to an end: with how many compiles open at a time, from which build, with which
outcome, and in which build. -/
inductive Ends (session : Session) : Nat → Work → Build → Outcome → Build → Prop
  | unknown {path : String} {rule : Option Rule} {build : Build}
      (hGet : build.resources.get? path = none) :
      Ends session 0 (.compile path rule) build (.error (.unknownRoot path)) build
  | compiled {path : String} {rule : Option Rule} {build : Build} {resource : Resource}
      (hGet : build.resources.get? path = some resource) (hState : resource.state = .compiled) :
      Ends session 0 (.compile path rule) build (.ok ()) build
  | circle {path : String} {rule : Option Rule} {build : Build} {resource : Resource}
      (hGet : build.resources.get? path = some resource) (hState : resource.state = .compiling) :
      Ends session 0 (.compile path rule) build (.error (build.circle path)) build
  | opened {depth : Nat} {path : String} {rule : Option Rule} {build last : Build}
      {resource : Resource} {outcome : Outcome}
      (hGet : build.resources.get? path = some resource) (hState : resource.state = .pending)
      (hRecipe : Ends session depth
        (.carry (session.compilers.forKind resource.kind session.options path rule).run)
        (build.enter path resource.kind) outcome last) :
      Ends session (depth + 1) (.compile path rule) build outcome (last.leave path outcome)
  | none (build : Build) : Ends session 0 (.each []) build (.ok ()) build
  | onward {depth depth' : Nat} {path : String} {rest : List String} {build middle last : Build}
      {outcome : Outcome}
      (hFirst : Ends session depth (.compile path (session.rules.find? path)) build (.ok ()) middle)
      (hRest : Ends session depth' (.each rest) middle outcome last) :
      Ends session (max depth depth') (.each (path :: rest)) build outcome last
  | stopped {depth : Nat} {path : String} {rest : List String} {build last : Build}
      {e : CompileError}
      (hFirst : Ends session depth (.compile path (session.rules.find? path)) build (.error e)
        last) :
      Ends session depth (.each (path :: rest)) build (.error e) last
  | done (outcome : Outcome) (build : Build) :
      Ends session 0 (.carry (.done outcome)) build outcome build
  /-- What is answered alike whatever compiles do is answered without one. -/
  | atOnce {depth : Nat} {request : Request} {next : request.Answer → Recipe Outcome}
      {build middle last : Build} {reply : request.Answer} {outcome : Outcome}
      (hAnswer : ∀ compile, session.answer compile request build = (reply, middle))
      (hNext : Ends session depth (.carry (next reply)) middle outcome last) :
      Ends session depth (.carry (.ask request next)) build outcome last
  | called {depth depth' : Nat} {recipe : Recipe Outcome} {work : Work}
      {next : Outcome → Recipe Outcome} {build start middle last : Build} {reply outcome : Outcome}
      (hCalls : session.Calls recipe build work start next)
      (hWork : Ends session depth work start reply middle)
      (hNext : Ends session depth' (.carry (next reply)) middle outcome last) :
      Ends session (max depth depth') (.carry recipe) build outcome last

variable {session : Session} {depth : Nat} {work : Work} {build start last : Build}
  {outcome : Outcome} {recipe : Recipe Outcome} {next : Outcome → Recipe Outcome}

/-- Work that is done with a function that carries compiles out. -/
def perform (session : Session) (compile : String → Option Rule → Build → Outcome × Build) :
    Work → Build → Outcome × Build
  | .compile path rule, build => compile path rule build
  | .each paths, build => session.compileEachBy compile paths build
  | .carry recipe, build => session.run compile recipe build

theorem perform_frame {R : Build → Build → Prop} (hR : Build.IsFrame R) (session : Session)
    {compile : String → Option Rule → Build → Outcome × Build}
    (hCompile : ∀ path rule build, R build (compile path rule build).2) (work : Work)
    (build : Build) : R build (session.perform compile work build).2 := by
  cases work with
  | compile path rule => exact hCompile path rule build
  | each paths => exact compileEachBy_frame hR hCompile session paths build
  | carry recipe => exact run_frame hR hCompile session recipe build

theorem Calls.run_eq (h : session.Calls recipe build work start next)
    (compile : String → Option Rule → Build → Outcome × Build) :
    session.run compile recipe build =
      session.run compile (next (session.perform compile work start).1)
        (session.perform compile work start).2 := by
  cases h with
  | compile path rule => rfl
  | compileRoot path => rfl
  | compileAll => rfl
  | require referrer next hGet hState hTarget =>
    simp only [run, answer, requireBy, hGet, hState, hTarget, Bool.false_eq_true, if_false, perform]

/-- A recipe goes on as it does with some answer to its request. -/
theorem Calls.next_eq {request : Request} {next' : request.Answer → Recipe Outcome}
    (h : session.Calls (.ask request next') build work start next) (reply : Outcome) :
    ∃ answer, next reply = next' answer := by
  cases h <;> exact ⟨reply, rfl⟩

theorem Calls.idle_eq (h : session.Calls recipe build work start next) :
    start.idle = build.idle := by
  cases h <;> rfl

/-- A bound on the depth that is at least the one of the run makes no difference. -/
theorem Ends.perform_eq (h : session.Ends depth work build outcome last) {bound : Nat}
    (hBound : depth ≤ bound) :
    session.perform (session.compileWithin bound) work build = (outcome, last) := by
  induction h generalizing bound with
  | unknown hGet => simp only [perform, compileWithin, hGet]
  | compiled hGet hState => simp only [perform, compileWithin, hGet, hState]
  | circle hGet hState => simp only [perform, compileWithin, hGet, hState]
  | opened hGet hState _ ih =>
    obtain ⟨bound, rfl⟩ : ∃ k, bound = k + 1 := ⟨bound - 1, by omega⟩
    have hRun := ih (Nat.le_of_succ_le_succ hBound)
    simp only [perform] at hRun
    simp only [perform, compileWithin, hGet, hState, hRun]
  | none => rfl
  | onward _ _ ihFirst ihRest =>
    have hFirst := ihFirst (Nat.le_trans (Nat.le_max_left ..) hBound)
    have hRest := ihRest (Nat.le_trans (Nat.le_max_right ..) hBound)
    simp only [perform] at hFirst hRest
    simp only [perform, compileEachBy, hFirst, hRest]
  | stopped _ ih =>
    have hFirst := ih hBound
    simp only [perform] at hFirst
    simp only [perform, compileEachBy, hFirst]
  | done => rfl
  | atOnce hAnswer _ ih =>
    simp only [perform, run, hAnswer]
    exact ih hBound
  | called hCalls _ _ ihWork ihNext =>
    rw [perform, hCalls.run_eq, ihWork (Nat.le_trans (Nat.le_max_left ..) hBound)]
    exact ihNext (Nat.le_trans (Nat.le_max_right ..) hBound)

/-- As many resources are idle after the work as before it. -/
theorem Ends.idle_eq (h : session.Ends depth work build outcome last) : last.idle = build.idle := by
  have hBalanced := perform_frame Build.balanced_isFrame session
    (compileWithin_frame Build.balanced_isFrame session depth) work build
  rw [h.perform_eq (Nat.le_refl depth)] at hBalanced
  exact hBalanced.idle_eq

/-- No more compiles are open at a time than resources are idle at first. -/
theorem Ends.depth_le (h : session.Ends depth work build outcome last) : depth ≤ build.idle := by
  induction h with
  | unknown => exact Nat.zero_le _
  | compiled => exact Nat.zero_le _
  | circle => exact Nat.zero_le _
  | none => exact Nat.zero_le _
  | done => exact Nat.zero_le _
  | @opened depth path rule build last resource outcome hGet hState _ ih =>
    have hLess := Build.idle_enter_lt resource.kind
      (Registry.state?_eq_some_iff.mpr ⟨resource, hGet, hState⟩)
    omega
  | onward hFirst _ ihFirst ihRest =>
    exact Nat.max_le.mpr ⟨ihFirst, hFirst.idle_eq ▸ ihRest⟩
  | stopped _ ih => exact ih
  | @atOnce depth request next build middle last reply outcome hAnswer _ ih =>
    have hBalanced := answer_frame Build.balanced_isFrame
      (compile_frame Build.balanced_isFrame session) session request build
    rw [hAnswer] at hBalanced
    exact hBalanced.idle_eq ▸ ih
  | called hCalls hWork _ ihWork ihNext =>
    have hStart := hCalls.idle_eq
    have hMiddle := hWork.idle_eq
    exact Nat.max_le.mpr ⟨hStart ▸ ihWork, by omega⟩

/-! ## Runs that end -/

/-- A request that calls for no other work is answered whatever compiles do. -/
theorem calls_or_answer_eq (session : Session) (request : Request)
    (next : request.Answer → Recipe Outcome) (build : Build) :
    (∃ work start next', session.Calls (.ask request next) build work start next') ∨
      ∃ reply middle, ∀ compile, session.answer compile request build = (reply, middle) := by
  cases request with
  | compile path rule => exact .inl ⟨_, _, _, .compile path rule next build⟩
  | compileRoot path => exact .inl ⟨_, _, _, .compileRoot path next build⟩
  | compileAll => exact .inl ⟨_, _, _, .compileAll next build⟩
  | require referrer target =>
    cases hGet : build.resources.get? target with
    | none => exact .inr ⟨_, _, fun _ => by simp only [answer, requireBy, hGet]; rfl⟩
    | some dependency =>
      cases hState : dependency.isCompiled with
      | true =>
        exact .inr ⟨_, _, fun _ => by simp only [answer, requireBy, hGet, hState, if_true]; rfl⟩
      | false =>
        cases hTarget : ((session.rules.find? target).map Rule.destination).getD (.ok none) with
        | ok destination =>
          exact .inl ⟨_, _, _, .require referrer next hGet hState hTarget⟩
        | error e =>
          exact .inr ⟨_, _, fun _ => by
            simp only [answer, requireBy, hGet, hState, hTarget, Bool.false_eq_true, if_false]
            rfl⟩
  | _ => exact .inr ⟨_, _, fun _ => rfl⟩

/-- From any build with few enough idle resources, work comes to an end in the way that the session
says. -/
def EndsFrom (session : Session) (limit : Nat) (work : Work) : Prop :=
  ∀ build : Build, build.idle ≤ limit → ∃ depth, session.Ends depth work build
    (session.perform session.compile work build).1 (session.perform session.compile work build).2

section

variable {limit : Nat}
  (hCompile : ∀ path rule, session.EndsFrom limit (.compile path rule))
include hCompile

theorem endsFrom_each (paths : List String) : session.EndsFrom limit (.each paths) := by
  induction paths with
  | nil => exact fun build _ => ⟨0, .none build⟩
  | cons path rest ih =>
    intro build hIdle
    obtain ⟨depth, hFirst⟩ := hCompile path (session.rules.find? path) build hIdle
    have hSame := hFirst.idle_eq
    simp only [perform] at hFirst hSame
    simp only [perform, compileEachBy]
    cases h : session.compile path (session.rules.find? path) build with
    | mk reply middle =>
      rw [h] at hFirst hSame
      cases reply with
      | ok =>
        obtain ⟨depth', hRest⟩ := ih middle (hSame ▸ hIdle)
        exact ⟨_, .onward hFirst hRest⟩
      | error e => exact ⟨_, .stopped hFirst⟩

theorem Calls.endsFrom (h : session.Calls recipe build work start next) :
    session.EndsFrom limit work := by
  cases h with
  | compile => exact hCompile _ _
  | compileRoot => exact hCompile _ _
  | compileAll => exact endsFrom_each hCompile _
  | require => exact hCompile _ _

/-- A recipe ends if the compiles end that it calls for, whatever it does with their outcomes. -/
theorem endsFrom_carry (recipe : Recipe Outcome) : session.EndsFrom limit (.carry recipe) := by
  induction recipe with
  | done outcome => exact fun build _ => ⟨0, .done outcome build⟩
  | ask request next ih =>
    intro build hIdle
    have hBalanced := answer_frame Build.balanced_isFrame
      (compile_frame Build.balanced_isFrame session) session request build
    rcases session.calls_or_answer_eq request next build with
      ⟨work, start, next', hCalls⟩ | ⟨reply, middle, hAnswer⟩
    · obtain ⟨depth, hWork⟩ := hCalls.endsFrom hCompile start (hCalls.idle_eq ▸ hIdle)
      have hMiddle := hWork.idle_eq.trans hCalls.idle_eq
      obtain ⟨answer, hNext'⟩ := hCalls.next_eq (session.perform session.compile work start).1
      obtain ⟨depth', hNext⟩ := ih answer _ (hMiddle ▸ hIdle)
      rw [perform, ← hNext'] at hNext
      rw [perform, hCalls.run_eq]
      exact ⟨_, .called hCalls hWork hNext⟩
    · rw [hAnswer] at hBalanced
      obtain ⟨depth, hNext⟩ := ih reply middle (hBalanced.idle_eq ▸ hIdle)
      rw [perform] at hNext
      rw [perform, run, hAnswer]
      exact ⟨depth, .atOnce hAnswer hNext⟩

end

theorem endsFrom_compile (session : Session) (limit : Nat) (path : String) (rule : Option Rule) :
    session.EndsFrom limit (.compile path rule) := by
  -- What a compile opens leaves one idle resource less for the compiles within it.
  induction limit using Nat.strongRecOn generalizing path rule with
  | ind limit ih =>
    intro build hIdle
    rw [perform, compile_eq]
    cases hGet : build.resources.get? path with
    | none => exact ⟨0, .unknown hGet⟩
    | some resource =>
      cases hState : resource.state with
      | compiled =>
        simp only [hState]
        exact ⟨0, .compiled hGet hState⟩
      | compiling =>
        simp only [hState]
        exact ⟨0, .circle hGet hState⟩
      | pending =>
        simp only [hState]
        have hLess := Build.idle_enter_lt resource.kind
          (Registry.state?_eq_some_iff.mpr ⟨resource, hGet, hState⟩)
        obtain ⟨depth, hRecipe⟩ := endsFrom_carry
          (fun path' rule' => ih (build.enter path resource.kind).idle (by omega) path' rule')
          (session.compilers.forKind resource.kind session.options path rule).run
          (build.enter path resource.kind) (Nat.le_refl _)
        exact ⟨depth + 1, .opened hGet hState hRecipe⟩

/-- Every compile comes to an end, whatever the resources are and what state they are in, whatever
the observers and the compilers do: there is a finite run of it, without any bound on the depth.
Every such run has no more compiles open at a time than there are resources that are not compiling
at first, let alone registered ones. With any bound that is at least this depth, and so without
one, the result is the one of the run. -/
theorem compile_ends (session : Session) (path : String) (rule : Option Rule) (build : Build) :
    (∃ depth outcome last, session.Ends depth (.compile path rule) build outcome last) ∧
    ∀ depth outcome last, session.Ends depth (.compile path rule) build outcome last →
      depth ≤ build.idle ∧ depth ≤ build.resources.size ∧
      (∀ bound, depth ≤ bound → session.compileWithin bound path rule build = (outcome, last)) ∧
      session.compile path rule build = (outcome, last) := by
  constructor
  · obtain ⟨depth, hEnds⟩ := session.endsFrom_compile build.idle path rule build (Nat.le_refl _)
    exact ⟨depth, _, _, hEnds⟩
  · intro depth outcome last hEnds
    have hDepth := hEnds.depth_le
    have hSize := Nat.le_trans hDepth build.idle_le_size
    exact ⟨hDepth, hSize, fun bound hBound => hEnds.perform_eq hBound, hEnds.perform_eq hSize⟩

end Session

end AssetLoom
