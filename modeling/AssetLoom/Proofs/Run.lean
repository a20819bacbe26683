import AssetLoom.Proofs.Gate

/-!
# Recipes carried out step by step

How a session carries out a recipe that is put together from others (`run_bind`), and when a task
succeeds (`run_task_bind_eq_ok_iff`): its parts succeed one after the other. Then, for the single
requests of a task, what they do to the resources.

* An event is never anything but entries of the journal (`emit_resources`).
* To resolve a URI sets it, between two events (`resolveUri_eq_ok_iff`).
* What is required is compiled already, or is going to be (`requireBy_eq_ok`); a compile succeeds
  or fails with the recipe behind the gate (`compileWithin_eq_ok`).
-/

namespace AssetLoom

namespace Session

variable (session : Session) (compile : String → Option Rule → Build → Outcome × Build)

/-! ## Sequences -/

theorem run_bind {α β : Type} (x : Recipe α) (f : α → Recipe β) (build : Build) :
    session.run compile (x >>= f) build =
      session.run compile (f (session.run compile x build).1) (session.run compile x build).2 := by
  induction x generalizing build with
  | done a => rfl
  | ask request next ih =>
    rw [Recipe.ask_bind, run, run]
    exact ih _ _

theorem run_task_bind {α β : Type} (x : Task α) (f : α → Task β) (build : Build) :
    session.run compile (x >>= f).run build =
      match session.run compile x.run build with
      | (.ok a, middle) => session.run compile (f a).run middle
      | (.error e, middle) => (.error e, middle) := by
  rw [ExceptT.run_bind, run_bind]
  obtain ⟨answer, middle⟩ := session.run compile x.run build
  cases answer <;> rfl

/-- A task in two parts succeeds if the first part does, and then the second one. -/
theorem run_task_bind_eq_ok_iff {α β : Type} {x : Task α} {f : α → Task β}
    {build last : Build} {b : β} :
    session.run compile (x >>= f).run build = (.ok b, last) ↔
      ∃ a middle, session.run compile x.run build = (.ok a, middle) ∧
        session.run compile (f a).run middle = (.ok b, last) := by
  rw [run_task_bind]
  obtain ⟨answer, middle⟩ := session.run compile x.run build
  cases answer with
  | ok a =>
    constructor
    · intro h
      exact ⟨a, middle, rfl, h⟩
    · rintro ⟨_, _, ⟨⟩, h⟩
      exact h
  | error e => simp

/-- A task in two parts fails if the first part does, or else the second one. -/
theorem run_task_bind_eq_error_iff {α β : Type} {x : Task α} {f : α → Task β}
    {build last : Build} {e : CompileError} :
    session.run compile (x >>= f).run build = (.error e, last) ↔
      session.run compile x.run build = (.error e, last) ∨
        ∃ a middle, session.run compile x.run build = (.ok a, middle) ∧
          session.run compile (f a).run middle = (.error e, last) := by
  rw [run_task_bind]
  obtain ⟨answer, middle⟩ := session.run compile x.run build
  cases answer with
  | ok a =>
    constructor
    · intro h
      exact .inr ⟨a, middle, rfl, h⟩
    · rintro (⟨⟨⟩⟩ | ⟨_, _, ⟨⟩, h⟩)
      exact h
  | error e' => simp

variable {session compile}

@[simp]
theorem run_task_pure {α : Type} (a : α) (build : Build) :
    session.run compile (pure a : Task α).run build = (.ok a, build) := rfl

@[simp]
theorem run_task_emit (event : Event) (path : String) (build : Build) :
    session.run compile (Task.emit event path).run build = session.emit event path build := rfl

@[simp]
theorem run_task_resolveUri (path : String) (rule : Option Rule) (build : Build) :
    session.run compile (Task.resolveUri path rule).run build =
      session.resolveUri path rule build := rfl

@[simp]
theorem run_task_require (referrer target : String) (build : Build) :
    session.run compile (Task.require referrer target).run build =
      session.requireBy compile referrer target build := rfl

@[simp]
theorem run_task_countEdits (pass : Pass) (path : String) (count : Nat) (build : Build) :
    session.run compile (Task.countEdits pass path count).run build =
      (.ok (), build.write (.edits pass path count)) := rfl

theorem run_task_fetch_eq_ok_iff {path : String} {build last : Build} {resource : Resource} :
    session.run compile (Task.fetch path).run build = (.ok resource, last) ↔
      build.resources.get? path = some resource ∧ last = build := by
  have hRun : session.run compile (Task.fetch path).run build =
      (match build.resources.get? path with
        | some resource => .ok resource
        | none => .error (.unknownRoot path), build) := by
    simp only [Task.fetch, ExceptT.run_mk, run, answer]
    cases build.resources.get? path <;> rfl
  rw [hRun]
  cases build.resources.get? path with
  | none => simp
  | some r => simp [eq_comm]

theorem run_task_replaceContent_eq_ok_iff {path : String} {text : Text} {build last : Build} :
    session.run compile (Task.replaceContent path text).run build = (.ok (), last) ↔
      (build.resources.get? path).isSome ∧
        last = { build with resources := build.resources.setContent path text } := by
  change replaceContent path text build = (.ok (), last) ↔ _
  unfold replaceContent
  cases build.resources.get? path with
  | none => simp
  | some r => simp [eq_comm]

theorem exists_ok_iff_isOk {result : Outcome × Build} :
    (∃ last, result = (.ok (), last)) ↔ result.1.isOk = true := by
  obtain ⟨outcome, build⟩ := result
  cases outcome with
  | ok => simp [Except.isOk, Except.toBool]
  | error e => simp [Except.isOk, Except.toBool]

/-! ## Events -/

theorem notify_resources (event : Event) (resource : Resource) (number : Nat)
    (observers : List Observer) (build : Build) :
    (notify event resource number observers build).2.resources = build.resources := by
  induction observers generalizing number build with
  | nil => rfl
  | cons observer rest ih =>
    unfold notify
    split
    · dsimp only
      split
      · rfl
      · rw [ih]
        rfl
    · exact ih _ _

/-- An event changes no resource. -/
theorem emit_resources (session : Session) (event : Event) (path : String) (build : Build) :
    (session.emit event path build).2.resources = build.resources := by
  unfold emit
  split
  · rfl
  · rw [notify_resources]
    rfl

theorem emit_eq_ok_resources {event : Event} {path : String} {build last : Build}
    (h : session.emit event path build = (.ok (), last)) : last.resources = build.resources := by
  have := emit_resources session event path build
  rwa [h] at this

/-- To resolve a URI is to find it by the rule, to set it and to tell of it before and after. -/
theorem resolveUri_eq_ok_iff {path : String} {rule : Option Rule} {build last : Build} :
    session.resolveUri path rule build = (.ok (), last) ↔
      ∃ told uri, session.emit .preResolve path build = (.ok (), told) ∧
        uriBy rule path = .ok uri ∧
        session.emit .resolved path { told.write (.resolved path uri) with
          resources := told.resources.setUri path uri } = (.ok (), last) := by
  unfold resolveUri
  cases hFirst : session.emit .preResolve path build with
  | mk outcome told =>
    cases outcome with
    | error e => simp
    | ok =>
      cases hUri : uriBy rule path with
      | error e => simp
      | ok uri =>
        simp only [Prod.mk.injEq, true_and]
        constructor
        · intro h
          exact ⟨told, uri, rfl, rfl, h⟩
        · rintro ⟨_, _, rfl, ⟨⟩, h⟩
          exact h

theorem resolveUri_eq_ok_resources {path : String} {rule : Option Rule} {build last : Build}
    (h : session.resolveUri path rule build = (.ok (), last)) :
    ∃ uri, uriBy rule path = .ok uri ∧ last.resources = build.resources.setUri path uri := by
  obtain ⟨told, uri, hFirst, hUri, hLast⟩ := resolveUri_eq_ok_iff.mp h
  exact ⟨uri, hUri, (emit_eq_ok_resources hLast).trans
    (emit_eq_ok_resources hFirst ▸ rfl)⟩

/-! ## Compiles -/

/-- What is required is compiled already, or its compile succeeds. -/
theorem requireBy_eq_ok {referrer target : String} {build last : Build}
    (h : session.requireBy compile referrer target build = (.ok (), last)) :
    (∃ r, build.resources.get? target = some r ∧ r.state = .compiled ∧ last = build) ∨
      compile target (session.rules.find? target) (build.write (.reached referrer target)) =
        (.ok (), last) := by
  unfold requireBy at h
  split at h
  · cases h
  · next r hGet =>
    split at h
    · next hCompiled =>
      cases h
      exact .inl ⟨r, hGet, by simpa [Resource.isCompiled] using hCompiled, rfl⟩
    · dsimp only at h
      split at h
      · cases h
      · exact .inr h

/-- What is required cannot be had if it is missing, if its destination is no string, or if its
compile fails. -/
theorem requireBy_eq_error {referrer target : String} {build last : Build} {e : CompileError}
    (h : session.requireBy compile referrer target build = (.error e, last)) :
    (build.resources.get? target = none ∧ e = .unresolved target referrer ∧ last = build) ∨
      ∃ r, build.resources.get? target = some r ∧
        (((session.rules.find? target).map Rule.destination).getD (.ok none) = .error e ∧
            last = build ∨
          ∃ found,
            ((session.rules.find? target).map Rule.destination).getD (.ok none) = .ok found ∧
            compile target (session.rules.find? target)
              (build.write (.reached referrer target)) = (.error e, last)) := by
  unfold requireBy at h
  split at h
  · next hMissing =>
    cases h
    exact .inl ⟨hMissing, rfl, rfl⟩
  · next r hGet =>
    refine .inr ⟨r, hGet, ?_⟩
    split at h
    · cases h
    · dsimp only at h
      split at h
      · next hTarget =>
        cases h
        exact .inl ⟨hTarget, rfl⟩
      · next found hTarget => exact .inr ⟨found, hTarget, h⟩

/-- A compile succeeds if there is nothing to do, or if the recipe behind the gate does. -/
theorem compileWithin_eq_ok {depth : Nat} {path : String} {rule : Option Rule}
    {build last : Build} (h : session.compileWithin depth path rule build = (.ok (), last)) :
    (∃ r, build.resources.get? path = some r ∧ r.state = .compiled ∧ last = build) ∨
      ∃ inner r closing, depth = inner + 1 ∧ build.resources.get? path = some r ∧
        r.state = .pending ∧ session.run (session.compileWithin inner)
          (session.compilers.forKind r.kind session.options path rule).run
          (build.enter path r.kind) = (.ok (), closing) ∧
        last = closing.leave path (.ok ()) := by
  cases hGet : build.resources.get? path with
  | none =>
    simp only [compileWithin, hGet] at h
    cases h
  | some r =>
    cases hState : r.state with
    | compiled =>
      simp only [compileWithin, hGet, hState] at h
      cases h
      exact .inl ⟨r, rfl, hState, rfl⟩
    | compiling =>
      simp only [compileWithin, hGet, hState] at h
      cases h
    | pending =>
      cases depth with
      | zero =>
        simp only [compileWithin, hGet, hState] at h
        cases h
      | succ inner =>
        simp only [compileWithin, hGet, hState] at h
        obtain ⟨hOutcome, rfl⟩ := Prod.mk.inj h
        exact .inr ⟨inner, r, _, rfl, rfl, hState, Prod.ext hOutcome rfl, by rw [hOutcome]⟩

/-! ## Observers that never fail -/

/-- No observer of the session ever fails. -/
def Quiet (session : Session) : Prop :=
  ∀ observer ∈ session.observers, ∀ journal event resource,
    observer.react journal event resource = none

theorem quiet_default : ({} : Session).Quiet := by
  intro observer hObserver
  cases hObserver

theorem notify_of_quiet (event : Event) (resource : Resource) (number : Nat)
    {observers : List Observer} (build : Build)
    (hQuiet : ∀ observer ∈ observers, ∀ journal event resource,
      observer.react journal event resource = none) :
    (notify event resource number observers build).1 = .ok () := by
  induction observers generalizing number build with
  | nil => rfl
  | cons observer rest ih =>
    have hRest := fun o ho => hQuiet o (List.mem_cons_of_mem _ ho)
    unfold notify
    split
    · simp only [hQuiet observer List.mem_cons_self]
      exact ih _ _ hRest
    · exact ih _ _ hRest

theorem Quiet.emit_ok (hQuiet : session.Quiet) (event : Event) {path : String} {build : Build}
    (hGet : (build.resources.get? path).isSome) :
    ∃ last, session.emit event path build = (.ok (), last) := by
  obtain ⟨resource, hResource⟩ := Option.isSome_iff_exists.mp hGet
  refine ⟨(session.emit event path build).2, Prod.ext ?_ rfl⟩
  simp only [emit, hResource]
  exact notify_of_quiet _ _ _ _ hQuiet

theorem Quiet.resolveUri_ok (hQuiet : session.Quiet) {path uri : String} {rule : Option Rule}
    {build : Build} (hGet : (build.resources.get? path).isSome) (hUri : uriBy rule path = .ok uri) :
    ∃ last, session.resolveUri path rule build = (.ok (), last) := by
  obtain ⟨told, hTold⟩ := hQuiet.emit_ok .preResolve hGet
  have hSet : ((told.resources.setUri path uri).get? path).isSome := by
    rw [emit_eq_ok_resources hTold, Registry.get?_setUri, if_pos rfl]
    simpa using hGet
  obtain ⟨last, hLast⟩ : ∃ last, session.emit .resolved path
      { told.write (.resolved path uri) with resources := told.resources.setUri path uri } =
        (.ok (), last) := hQuiet.emit_ok .resolved hSet
  exact ⟨last, resolveUri_eq_ok_iff.mpr ⟨told, uri, hTold, hUri, hLast⟩⟩

end Session

end AssetLoom
