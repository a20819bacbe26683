import AssetLoom.Proofs.Builds

/-!
# How a compile fails

With observers that never fail, a compile fails because a resource is missing, because one is
reached again within its own compile, or because the destination of a rule is no string. By then
some resources are completed. Of the templates that the compile was within, each one is either as
it was before, or has the text of the first pass (`Session.Halts`). All compiles that fail are
like that (`compile_halts`).
-/

namespace AssetLoom

/-- The open compiles are those on the stack, and no more than `limit` other ones can be
opened. -/
structure Build.Inside (stack : List String) (limit : Nat) (build : Build) : Prop where
  stack_eq : build.stack = stack
  idle_le : build.idle ≤ limit

theorem Build.Inside.of_balanced {stack : List String} {limit : Nat} {before after : Build}
    (h : before.Inside stack limit) (hBalanced : Build.Balanced before after) :
    after.Inside stack limit :=
  ⟨hBalanced.stack_eq.trans h.stack_eq, hBalanced.idle_eq ▸ h.idle_le⟩

namespace Session

variable {session : Session} {compile : String → Option Rule → Build → Outcome × Build}

/-! ## Where the built-in compilers fail -/

theorem destination_eq_error {rule : Rule} {e : CompileError} (h : rule.destination = .error e) :
    ∃ pattern found, e = .invalidDestination pattern found := by
  unfold Rule.destination at h
  split at h
  · cases h
  · cases h
  · cases h
    exact ⟨_, _, rfl⟩

theorem destination_eq_error_of_mapPath {rule : Rule} {path : String} {e : CompileError}
    (h : rule.mapPath path = .error e) : rule.destination = .error e := by
  rw [Rule.mapPath] at h
  cases hDestination : rule.destination with
  | error e' =>
    rw [hDestination] at h
    cases h
    rfl
  | ok target =>
    rw [hDestination] at h
    cases target with
    | none => cases h
    | some target =>
      change (if target = "" then _ else _) = _ at h
      split at h <;> cases h

theorem uriBy_eq_error {rule : Option Rule} {path : String} {e : CompileError}
    (h : uriBy rule path = .error e) : ∃ pattern found, e = .invalidDestination pattern found := by
  cases rule with
  | none => cases h
  | some rule => exact destination_eq_error (destination_eq_error_of_mapPath h)

theorem Quiet.emit_ne_error (hQuiet : session.Quiet) {event : Event} {path : String}
    {build last : Build} {e : CompileError} (hGet : (build.resources.get? path).isSome) :
    session.emit event path build ≠ (.error e, last) := by
  obtain ⟨told, hTold⟩ := hQuiet.emit_ok event hGet
  rw [hTold]
  nofun

/-- To resolve a URI fails only if there is none. -/
theorem Quiet.resolveUri_eq_error (hQuiet : session.Quiet) {path : String} {rule : Option Rule}
    {build last : Build} {e : CompileError} (hGet : (build.resources.get? path).isSome)
    (h : session.resolveUri path rule build = (.error e, last)) :
    uriBy rule path = .error e ∧ last.resources = build.resources := by
  cases hUri : uriBy rule path with
  | ok uri =>
    obtain ⟨resolved, hResolved⟩ := hQuiet.resolveUri_ok hGet hUri
    rw [hResolved] at h
    cases h
  | error e' =>
    obtain ⟨told, hTold⟩ := hQuiet.emit_ok .preResolve hGet
    simp only [resolveUri, hTold, hUri] at h
    cases h
    exact ⟨rfl, emit_eq_ok_resources hTold⟩

theorem run_assetCompiler_eq_error (hQuiet : session.Quiet) {options : CompileOptions}
    {path : String} {rule : Option Rule} {build last : Build} {e : CompileError}
    (hGet : (build.resources.get? path).isSome)
    (h : session.run compile (assetCompiler options path rule).run build = (.error e, last)) :
    uriBy rule path = .error e ∧ last.resources = build.resources := by
  simp only [assetCompiler, run_task_bind_eq_error_iff, run_task_emit, run_task_resolveUri] at h
  rcases h with hFail | ⟨⟨⟩, told, hTold, hFail | ⟨⟨⟩, compiled, hCompiled, hFail⟩⟩
  · exact absurd hFail (hQuiet.emit_ne_error hGet)
  · exact absurd hFail (hQuiet.emit_ne_error (emit_eq_ok_resources hTold ▸ hGet))
  · have hSame := (emit_eq_ok_resources hCompiled).trans (emit_eq_ok_resources hTold)
    obtain ⟨hUri, hLast⟩ := hQuiet.resolveUri_eq_error (hSame ▸ hGet) hFail
    exact ⟨hUri, hLast.trans hSame⟩

theorem run_fetch_ne_error {path : String} {build last : Build} {e : CompileError} {r : Resource}
    (hGet : build.resources.get? path = some r) :
    session.run compile (Task.fetch path).run build ≠ (.error e, last) := by
  rw [run_task_fetch_eq_ok_iff.mpr ⟨hGet, rfl⟩]
  nofun

/-- A template that is not permanent fails in one of its passes, or between them for want of a
URI. -/
theorem run_templateCompiler_eq_error (hQuiet : session.Quiet)
    (hBalanced : ∀ path rule build, Build.Balanced build (compile path rule build).2)
    {options : CompileOptions} {path : String} {rule : Option Rule} {build last : Build}
    {e : CompileError} {r : Resource} (hGet : build.resources.get? path = some r)
    (hPermanent : r.permanent = false)
    (h : session.run compile (templateCompiler options path rule).run build = (.error e, last)) :
    ∃ told, session.emit .preCompile path build = (.ok (), told) ∧
      (session.run compile (identityPass options path).run told = (.error e, last) ∨
        ∃ passed, session.run compile (identityPass options path).run told = (.ok (), passed) ∧
          (uriBy rule path = .error e ∧ last.resources = passed.resources ∨
            ∃ compiled resolved, session.emit .compiled path passed = (.ok (), compiled) ∧
              session.resolveUri path rule compiled = (.ok (), resolved) ∧
              session.run compile (relativePass path).run resolved = (.error e, last))) := by
  have hRegistered : (build.resources.get? path).isSome := by simp [hGet]
  simp only [templateCompiler, run_task_bind_eq_error_iff, run_task_emit] at h
  rcases h with hFail | ⟨⟨⟩, _, hTold, hFail | ⟨r', told, hFetch, hRest⟩⟩
  · exact absurd hFail (hQuiet.emit_ne_error hRegistered)
  · exact absurd hFail (run_fetch_ne_error (emit_eq_ok_resources hTold ▸ hGet))
  · have hSame := emit_eq_ok_resources hTold
    obtain ⟨hGet', rfl⟩ := run_task_fetch_eq_ok_iff.mp hFetch
    rw [hSame, hGet] at hGet'
    cases hGet'
    simp only [hPermanent, Bool.not_false, if_true, run_task_bind_eq_error_iff, run_task_emit,
      run_task_resolveUri] at hRest
    refine ⟨_, hTold, ?_⟩
    rcases hRest with hFirst | ⟨⟨⟩, passed, hPassed, hRest⟩
    · exact .inl hFirst
    · refine .inr ⟨passed, hPassed, ?_⟩
      have hFrame := run_frame Build.balanced_isFrame hBalanced session
        (identityPass options path).run told
      rw [hPassed] at hFrame
      have hStill := hFrame.isSome_get? (hSame ▸ hRegistered)
      rcases hRest with hFail | ⟨⟨⟩, compiled, hCompiled, hRest⟩
      · exact absurd hFail (hQuiet.emit_ne_error hStill)
      · have hSame' := emit_eq_ok_resources hCompiled
        rcases hRest with hFail | ⟨⟨⟩, resolved, hResolved, hSecond⟩
        · obtain ⟨hUri, hLast⟩ := hQuiet.resolveUri_eq_error (hSame' ▸ hStill) hFail
          exact .inl ⟨hUri, hLast.trans hSame'⟩
        · exact .inr ⟨compiled, resolved, hCompiled, hResolved, hSecond⟩

section

variable {path : String} {build last : Build} {e : CompileError} {r : Resource}
  (hGet : build.resources.get? path = some r)
include hGet

/-- The first pass fails only if edits cannot be collected. -/
theorem run_identityPass_eq_error {options : CompileOptions}
    (hStill : ∀ {edits middle}, session.run compile (collectEdits path identityReplacement
      (identityPlan options path r.text)).run build = (.ok edits, middle) →
        middle.resources.get? path = some r)
    (h : session.run compile (identityPass options path).run build = (.error e, last)) :
    session.run compile (collectEdits path identityReplacement
      (identityPlan options path r.text)).run build = (.error e, last) := by
  simp only [identityPass, run_task_bind_eq_error_iff, run_task_countEdits] at h
  rcases h with hFail | ⟨r', _, hFetch, hRest⟩
  · exact absurd hFail (run_fetch_ne_error hGet)
  · obtain ⟨hGet', rfl⟩ := run_task_fetch_eq_ok_iff.mp hFetch
    rw [hGet] at hGet'
    cases hGet'
    rcases hRest with hEdits | ⟨edits, middle, hEdits, hStop | ⟨⟨⟩, _, ⟨⟩, hStore⟩⟩
    · exact hEdits
    · cases hStop
    · have hSame := hStill hEdits
      obtain ⟨_, hStored, -⟩ := run_storeIdentity session compile
        (middle.write (.edits .identity path edits.length)) hSame
        (applyEdits (searchedText options r.text) edits)
      rw [hStored] at hStore
      cases hStore

/-- So does the second pass. -/
theorem run_relativePass_eq_error
    (hStill : ∀ {edits middle}, session.run compile (collectEdits path
      (relativeReplacement (r.uri.getD path)) (relativePlan path r.text)).run build =
        (.ok edits, middle) → middle.resources.get? path = some r)
    (h : session.run compile (relativePass path).run build = (.error e, last)) :
    session.run compile (collectEdits path (relativeReplacement (r.uri.getD path))
      (relativePlan path r.text)).run build = (.error e, last) := by
  simp only [relativePass, run_task_bind_eq_error_iff] at h
  rcases h with hFail | ⟨r', _, hFetch, hRest⟩
  · exact absurd hFail (run_fetch_ne_error hGet)
  · obtain ⟨hGet', rfl⟩ := run_task_fetch_eq_ok_iff.mp hFetch
    rw [hGet] at hGet'
    cases hGet'
    rcases hRest with hEdits | ⟨edits, middle, hEdits, hStore⟩
    · exact hEdits
    · obtain ⟨_, hStored, -⟩ := run_storeRelative session compile middle (hStill hEdits) edits
        (applyEdits r.text edits)
      rw [hStored] at hStore
      cases hStore

end

/-! ## Failed compiles -/

/-- What a session is asked for: a root, or what a pass over a template has planned. -/
inductive Demand
  | root (path : String)
  | pass (referrer : String) (keys : List String)

/-- The resources that are asked for. -/
def Demand.keys : Demand → List String
  | root path => [path]
  | pass _ keys => keys

/-- The destination that the first rule for a path gives, if it is well formed. -/
def destinationOf (session : Session) (path : String) : Except CompileError (Option String) :=
  ((session.rules.find? path).map Rule.destination).getD (.ok none)

/-- A template that waits to be rewritten in two passes. -/
structure Rewritable (session : Session) (view : View) (path : String) (r : Resource) : Prop where
  get : view path = some r
  named : r.path = path
  pending : r.state = .pending
  permanent : r.permanent = false
  template : session.compilers.forKind r.kind = templateCompiler

/-- How a session fails with an error at what it is asked for, while the compiles on the stack are
open: the views before and after. -/
inductive Halts (session : Session) (e : CompileError) :
    List String → Demand → View → View → Prop
  | unknown {stack : List String} {key : String} {view : View} (hGet : view key = none)
      (hCause : e = .unknownRoot key) : Halts session e stack (.root key) view view
  | circle {stack : List String} {key : String} {view : View} {r : Resource}
      (hGet : view key = some r) (hState : r.state = .compiling)
      (hCause : e = Build.circle { stack } key) : Halts session e stack (.root key) view view
  | plain {stack : List String} {key : String} {view : View} {r : Resource}
      (hGet : view key = some r) (hNamed : r.path = key) (hState : r.state = .pending)
      (hPlain : r.permanent = true ∨ session.compilers.forKind r.kind = assetCompiler)
      (hCause : uriBy (session.rules.find? key) key = .error e) :
      Halts session e stack (.root key) view view
  /-- What fails in the first pass over a template leaves it as it was. -/
  | first {stack : List String} {key : String} {view inner : View} {r : Resource}
      (hTemplate : session.Rewritable view key r)
      (hKeys : Halts session e (stack ++ [key])
        (.pass key ((identityPlan session.options key r.text).map Planned.key))
        (Function.update view key (some { r with state := .compiling })) inner) :
      Halts session e stack (.root key) view (Function.update inner key (some r))
  /-- Without a URI the text of the first pass is left. -/
  | between {stack : List String} {key : String} {view inner : View} {r : Resource}
      {content : ByteArray} (hTemplate : session.Rewritable view key r)
      (hKeys : session.Completes ((identityPlan session.options key r.text).map Planned.key)
        (Function.update view key (some { r with state := .compiling })) inner)
      (hContent : content = identityContent session.options key (View.resource inner) r.content)
      (hCause : uriBy (session.rules.find? key) key = .error e) :
      Halts session e stack (.root key) view
        (Function.update inner key (some { r with content, state := .pending }))
  /-- So it is by what fails in the second pass. -/
  | second {stack : List String} {key uri : String} {view view₁ view₂ : View} {r : Resource}
      {content : ByteArray} (hTemplate : session.Rewritable view key r)
      (hFirst : session.Completes ((identityPlan session.options key r.text).map Planned.key)
        (Function.update view key (some { r with state := .compiling })) view₁)
      (hContent : content = identityContent session.options key (View.resource view₁) r.content)
      (hUri : uriBy (session.rules.find? key) key = .ok uri)
      (hKeys : Halts session e (stack ++ [key])
        (.pass key ((relativePlan key (Text.decode content)).map Planned.key))
        (Function.update view₁ key
          (some { r with content, uri := some uri, state := .compiling })) view₂) :
      Halts session e stack (.root key) view
        (Function.update view₂ key (some { r with content, uri := some uri, state := .pending }))
  | missing {stack rest : List String} {referrer key : String} {view : View}
      (hGet : view key = none) (hCause : e = .unresolved key referrer) :
      Halts session e stack (.pass referrer (key :: rest)) view view
  /-- A destination that is no string is found before the compile of its resource starts. -/
  | destination {stack rest : List String} {referrer key : String} {view : View} {r : Resource}
      (hGet : view key = some r) (hCause : session.destinationOf key = .error e) :
      Halts session e stack (.pass referrer (key :: rest)) view view
  | within {stack rest : List String} {referrer key : String} {view last : View}
      {target : Option String} (hTarget : session.destinationOf key = .ok target)
      (hRegistered : (view key).isSome)
      (hKey : Halts session e stack (.root key) view last) :
      Halts session e stack (.pass referrer (key :: rest)) view last
  | later {stack rest : List String} {referrer key : String} {view middle last : View}
      (hFirst : session.Completes [key] view middle)
      (hRest : Halts session e stack (.pass referrer rest) middle last) :
      Halts session e stack (.pass referrer (key :: rest)) view last

section

variable (hBuiltIn : session.compilers.BuiltIn) {e : CompileError} {stack : List String}
  {limit : Nat}
  (hCompile : ∀ key build last, build.Inside stack limit →
    session.compile key (session.rules.find? key) build = (.error e, last) →
    session.Halts e stack (.root key) build.resources.get? last.resources.get?)
  {build last : Build} (hInside : build.Inside stack limit)
include hCompile hInside

theorem requireBy_halts {referrer target : String} (rest : List String)
    (h : session.requireBy session.compile referrer target build = (.error e, last)) :
    session.Halts e stack (.pass referrer (target :: rest)) build.resources.get?
      last.resources.get? := by
  rcases requireBy_eq_error h with ⟨hMissing, rfl, rfl⟩ |
    ⟨r, hGet, ⟨hTarget, rfl⟩ | ⟨found, hTarget, hLast⟩⟩
  · exact .missing hMissing rfl
  · exact .destination hGet hTarget
  · exact .within hTarget (by simp [hGet])
      (hCompile target (build.write _) last ⟨hInside.stack_eq, hInside.idle_le⟩ hLast)

include hBuiltIn

theorem collectEdits_halts {path : String} {replacement : Planned → Resource → Text}
    {planned : List Planned}
    (h : session.run session.compile (collectEdits path replacement planned).run build =
      (.error e, last)) :
    session.Halts e stack (.pass path (planned.map Planned.key)) build.resources.get?
      last.resources.get? := by
  induction planned generalizing build with
  | nil =>
    rw [collectEdits, run_task_pure] at h
    cases h
  | cons p planned ih =>
    simp only [collectEdits, run_task_bind_eq_error_iff, run_task_require, run_task_pure] at h
    rcases h with hFirst | ⟨⟨⟩, middle, hFirst, hRest⟩
    · exact requireBy_halts hCompile hInside _ hFirst
    · have hCompleted := requireBy_completes (fun _ _ _ => compileRoot_completes hBuiltIn) hFirst
      have hBalanced := requireBy_frame Build.balanced_isFrame
        (compile_frame Build.balanced_isFrame session) session path p.key build
      rw [hFirst] at hBalanced
      obtain ⟨r, hGet, -⟩ := hCompleted.compiled p.key List.mem_cons_self
      rcases hRest with hFail | ⟨_, fetched, hFetch, hFail | ⟨_, _, _, ⟨⟩⟩⟩
      · exact absurd hFail (run_fetch_ne_error hGet)
      · obtain ⟨-, rfl⟩ := run_task_fetch_eq_ok_iff.mp hFetch
        exact .later hCompleted (ih (hInside.of_balanced hBalanced) hFail)

theorem identityPass_halts {options : CompileOptions} {path : String} {r : Resource}
    (hGet : build.resources.get? path = some r) (hState : r.state = .compiling)
    (h : session.run session.compile (identityPass options path).run build = (.error e, last)) :
    session.Halts e stack (.pass path ((identityPlan options path r.text).map Planned.key))
      build.resources.get? last.resources.get? := by
  refine collectEdits_halts hBuiltIn hCompile hInside (run_identityPass_eq_error hGet ?_ h)
  intro edits middle hEdits
  have hCompletes := (collectEdits_completes (fun _ _ _ => compileRoot_completes hBuiltIn) hEdits).1
  exact hCompletes.advances.keeps hGet (by simp [hState])

theorem relativePass_halts {path : String} {r : Resource}
    (hGet : build.resources.get? path = some r) (hState : r.state = .compiling)
    (h : session.run session.compile (relativePass path).run build = (.error e, last)) :
    session.Halts e stack (.pass path ((relativePlan path r.text).map Planned.key))
      build.resources.get? last.resources.get? := by
  refine collectEdits_halts hBuiltIn hCompile hInside (run_relativePass_eq_error hGet ?_ h)
  intro edits middle hEdits
  have hCompletes := (collectEdits_completes (fun _ _ _ => compileRoot_completes hBuiltIn) hEdits).1
  exact hCompletes.advances.keeps hGet (by simp [hState])

end

/-- What is not pending stays as it is. -/
theorem Halts.keeps {e : CompileError} {stack : List String} {demand : Demand} {view last : View}
    (h : session.Halts e stack demand view last) {path : String} {r : Resource}
    (hGet : view path = some r) (hState : r.state ≠ .pending) : last path = some r := by
  have hNe : ∀ {view : View} {key : String} {r' : Resource}, view path = some r →
      session.Rewritable view key r' → path ≠ key := by
    rintro view key r' hPath hTemplate rfl
    rw [hTemplate.get] at hPath
    cases hPath
    exact hState hTemplate.pending
  induction h with
  | unknown => exact hGet
  | circle => exact hGet
  | plain => exact hGet
  | missing => exact hGet
  | destination => exact hGet
  | within _ _ _ ih => exact ih hGet
  | later hFirst _ ih => exact ih (hFirst.advances.keeps hGet hState)
  | first hTemplate _ ih =>
    have hOther := hNe hGet hTemplate
    rw [Function.update_of_ne hOther]
    exact ih (by rwa [Function.update_of_ne hOther])
  | between hTemplate hKeys _ _ =>
    have hOther := hNe hGet hTemplate
    rw [Function.update_of_ne hOther]
    exact hKeys.advances.keeps (by rwa [Function.update_of_ne hOther]) hState
  | second hTemplate hFirst _ _ _ ih =>
    have hOther := hNe hGet hTemplate
    rw [Function.update_of_ne hOther]
    refine ih ?_
    rw [Function.update_of_ne hOther]
    exact hFirst.advances.keeps (by rwa [Function.update_of_ne hOther]) hState

/-- What is missing has not been registered before. -/
theorem Halts.unregistered {missing referrer : String} {stack : List String} {demand : Demand}
    {view last : View} (h : session.Halts (.unresolved missing referrer) stack demand view last) :
    view missing = none := by
  have hNone : ∀ {view : View} {key : String} {r : Resource}, view key = some r →
      ∀ busy, Function.update view key (some busy) missing = none → view missing = none := by
    intro view key r hGet busy hMissing
    by_cases hq : missing = key
    · subst hq
      rw [Function.update_self] at hMissing
      cases hMissing
    · rwa [Function.update_of_ne hq] at hMissing
  have hBefore : ∀ {keys : List String} {view last : View}, session.Completes keys view last →
      last missing = none → view missing = none := by
    intro keys view last hCompletes hMissing
    rcases hCompletes.advances missing with hSame | ⟨r, _, made, _, _, hMade, _⟩
    · rwa [hSame] at hMissing
    · rw [hMissing] at hMade
      cases hMade
  have hUri : ∀ {key : String},
      uriBy (session.rules.find? key) key ≠ .error (.unresolved missing referrer) := by
    intro key hCause
    obtain ⟨pattern, found, ⟨⟩⟩ := uriBy_eq_error hCause
  induction h with
  | unknown _ hCause => cases hCause
  | circle _ _ hCause => cases hCause
  | plain _ _ _ _ hCause => exact absurd hCause hUri
  | first hTemplate _ ih => exact hNone hTemplate.get _ ih
  | between _ _ _ hCause => exact absurd hCause hUri
  | @second stack key uri view view₁ view₂ r content hTemplate hFirst _ _ _ ih =>
    have hOpen := hFirst.advances.keeps (Function.update_self ..) (by simp)
    exact hNone hTemplate.get _ (hBefore hFirst (hNone hOpen _ ih))
  | missing hGet hCause =>
    cases hCause
    exact hGet
  | @destination _ _ _ key _ _ _ hCause =>
    rw [destinationOf] at hCause
    cases hRule : session.rules.find? key with
    | none => simp [hRule] at hCause
    | some rule =>
      rw [hRule] at hCause
      obtain ⟨pattern, found, ⟨⟩⟩ := destination_eq_error hCause
  | within _ _ _ ih => exact ih
  | later hFirst _ ih => exact hBefore hFirst ih

theorem get?_leave_error {build : Build} {path : String} {r : Resource} (e : CompileError)
    (hGet : build.resources.get? path = some r) :
    (build.leave path (.error e)).resources.get? =
      Function.update build.resources.get? path (some { r with state := .pending }) :=
  Registry.get?_setState_eq_update hGet .pending

theorem eq_of_state_eq {r : Resource} {state : CompileState} (h : r.state = state) :
    { r with state } = r := by
  subst h
  rfl

section

variable {e : CompileError} {path : String} {build last : Build} {r : Resource}

/-- A compile that has changed nothing leaves its resource as it was. -/
theorem get?_leave_of_enter (e : CompileError) (hGet : build.resources.get? path = some r)
    (hState : r.state = .pending) (hLast : last.resources = (build.enter path r.kind).resources) :
    (last.leave path (.error e)).resources.get? = build.resources.get? := by
  have hView : last.resources.get? =
      Function.update build.resources.get? path (some { r with state := .compiling }) := by
    rw [hLast, get?_enter hGet]
  rw [get?_leave_error e (by rw [hView, Function.update_self]), hView, Function.update_idem]
  simp only [eq_of_state_eq hState]
  rw [← hGet, Function.update_eq_self]

variable (hBuiltIn : session.compilers.BuiltIn) (hQuiet : session.Quiet)
include hBuiltIn hQuiet

theorem template_halts (hTemplate : session.Rewritable build.resources.get? path r)
    (hCompile : ∀ key inner last,
      inner.Inside (build.stack ++ [path]) (build.enter path r.kind).idle →
      session.compile key (session.rules.find? key) inner = (.error e, last) →
      session.Halts e (build.stack ++ [path]) (.root key) inner.resources.get?
        last.resources.get?)
    (h : session.run session.compile (templateCompiler session.options path
      (session.rules.find? path)).run (build.enter path r.kind) = (.error e, last)) :
    session.Halts e build.stack (.root path) build.resources.get?
      (last.leave path (.error e)).resources.get? := by
  have hCompletes : ∀ key build last,
      session.compile key (session.rules.find? key) build = (.ok (), last) →
      session.Completes [key] build.resources.get? last.resources.get? :=
    fun _ _ _ => compileRoot_completes hBuiltIn
  have hBalanced := compile_frame Build.balanced_isFrame session
  have hEnter := get?_enter hTemplate.get r.kind
  have hBusy := get?_enter_self hTemplate.get r.kind
  have hInside : (build.enter path r.kind).Inside (build.stack ++ [path])
      (build.enter path r.kind).idle := ⟨rfl, Nat.le_refl _⟩
  obtain ⟨told, hTold, hFirst | ⟨passed, hPassed, hRest⟩⟩ :=
    run_templateCompiler_eq_error hQuiet hBalanced hBusy hTemplate.permanent h
  · have hInsideTold := hInside.of_balanced (balanced_of_emit hTold)
    rw [← emit_eq_ok_resources hTold] at hBusy hEnter
    have hHalts := identityPass_halts hBuiltIn hCompile hInsideTold hBusy rfl hFirst
    have hStill := hHalts.keeps hBusy (by simp)
    rw [hEnter] at hHalts
    rw [get?_leave_error e hStill]
    simp only [eq_of_state_eq hTemplate.pending]
    exact .first hTemplate hHalts
  · rcases hRest with ⟨hUri, hLast⟩ | ⟨compiled, resolved, hCompiled, hResolved, hSecond⟩
    · rw [← emit_eq_ok_resources hTold] at hBusy hEnter
      obtain ⟨view, hKeys, hView⟩ := identityPass_completes hCompletes hBusy rfl hPassed
      rw [hEnter] at hKeys
      rw [get?_leave_error _ (by rw [hLast, hView, Function.update_self]), hLast, hView,
        Function.update_idem]
      exact .between (r := r) hTemplate hKeys rfl hUri
    · obtain ⟨view₁, uri, hUri, hFirst, hView⟩ :=
        firstPass_completes hCompletes hBusy rfl hTold hPassed hCompiled hResolved
      rw [hEnter] at hFirst
      have hInsideResolved : resolved.Inside (build.stack ++ [path])
          (build.enter path r.kind).idle := by
        have hRun := run_frame Build.balanced_isFrame hBalanced session
          (identityPass session.options path).run told
        have hLast := resolveUri_frame Build.balanced_isFrame session path
          (session.rules.find? path) compiled
        rw [hPassed] at hRun
        rw [hResolved] at hLast
        exact (((hInside.of_balanced (balanced_of_emit hTold)).of_balanced hRun).of_balanced
          (balanced_of_emit hCompiled)).of_balanced hLast
      have hOpen := congrFun hView path
      rw [Function.update_self] at hOpen
      have hHalts := relativePass_halts hBuiltIn hCompile hInsideResolved hOpen rfl hSecond
      have hStill := hHalts.keeps hOpen (by simp)
      rw [hView] at hHalts
      rw [get?_leave_error e hStill]
      exact .second (r := r) hTemplate hFirst rfl hUri hHalts

/-- A compile fails in one of these ways, wherever it starts. -/
theorem compile_halts (h : session.compile path (session.rules.find? path) build =
      (.error e, last)) :
    session.Halts e build.stack (.root path) build.resources.get? last.resources.get? := by
  -- By induction on the number of resources that are not being compiled.
  obtain ⟨limit, hLimit⟩ : ∃ limit, build.idle = limit := ⟨_, rfl⟩
  induction limit using Nat.strongRecOn generalizing path build last with
  | ind limit ih =>
    rcases compile_eq_error h with ⟨hMissing, rfl, rfl⟩ |
      ⟨r, hGet, ⟨hState, rfl, rfl⟩ | ⟨closing, hState, hRun, rfl⟩⟩
    · exact .unknown hMissing rfl
    · exact .circle hGet hState rfl
    · have hNamed := Registry.path_of_get? hGet
      have hBusy := get?_enter_self hGet r.kind
      by_cases hPlain : r.permanent = true ∨ session.compilers.forKind r.kind = assetCompiler
      · obtain ⟨hUri, hLast⟩ := run_assetCompiler_eq_error hQuiet (by simp [hBusy])
          ((run_forKind_of_plain hBuiltIn hBusy hPlain).symm.trans hRun)
        rw [get?_leave_of_enter e hGet hState hLast]
        exact .plain hGet hNamed hState hPlain hUri
      · obtain ⟨hPermanent, hKind⟩ := not_or.mp hPlain
        have hTemplate := (hBuiltIn r.kind).resolve_right hKind
        have hLess := Build.idle_enter_lt r.kind
          (Registry.state?_eq_some_iff.mpr ⟨r, hGet, hState⟩)
        rw [hTemplate] at hRun
        refine template_halts hBuiltIn hQuiet
          ⟨hGet, hNamed, hState, by simpa using hPermanent, hTemplate⟩ ?_ hRun
        intro key inside last hInside hInner
        rw [← hInside.stack_eq]
        exact ih inside.idle (by have := hInside.idle_le; omega) hInner rfl

end

end Session

end AssetLoom
