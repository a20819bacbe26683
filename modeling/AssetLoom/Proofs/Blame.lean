import AssetLoom.Proofs.Interruption
import AssetLoom.Proofs.Stages

/-!
# From a failure to its cause

Whatever the observers do, a compile fails by a fault of its own resource, or because a pass of it
needs something that cannot be had, and then the compile of this may have failed in its turn.
`Session.Blames` follows a failure down to its cause (`Amid.compile_blames`). On the way each
template is in a pass that has planned the next one (`Session.Engaged`), and it still is when the
error has come to the top.
-/

namespace AssetLoom

namespace Session

open Build (Aloof Keeps Balanced Gated Steady)

variable {session : Session} {start a b build last : Build} {e : CompileError}
  {path : String} {stack : List String} {limit : Nat}

/-! ## Templates in a pass -/

/-- A template is in one of its passes, or has failed there. The pass has planned the given
keys. -/
inductive Attempt.InPass (attempt : session.Attempt) (now : Build) : List String → Prop
  | first {state : CompileState} (hAt : attempt.At .untouched [.preCompile] state now)
      (hState : state ≠ .compiled) : InPass attempt now attempt.firstKeys
  | second {state : CompileState} (hAt : attempt.At .located Event.order state now)
      (hState : state ≠ .compiled) :
      InPass attempt now (attempt.secondKeys now.resources.get?)

namespace Attempt

variable {attempt : session.Attempt} {keys : List String}

theorem At.secondKeys_eq {told : List Event} {state : CompileState}
    (h : attempt.At .located told state a) (hKeeps : Keeps a b) :
    attempt.secondKeys b.resources.get? = attempt.secondKeys a.resources.get? := by
  obtain ⟨v, hVersion, -⟩ := h.version
  cases hVersion with
  | located hFirst _ =>
    rw [secondKeys, rewritten_congr (fun key hKey => hKeeps.view_eq hKey) hFirst, secondKeys]

theorem InPass.beside (h : attempt.InPass a keys) (hAloof : Aloof attempt.path a b)
    (hKeeps : Keeps a b) : attempt.InPass b keys := by
  cases h with
  | first hAt hState => exact .first (hAt.beside hAloof hKeeps) hState
  | second hAt hState =>
    rw [← hAt.secondKeys_eq hKeeps]
    exact .second (hAt.beside hAloof hKeeps) hState

theorem InPass.leave (h : attempt.InPass a keys) (e : CompileError) :
    attempt.InPass (a.leave attempt.path (.error e)) keys := by
  cases h with
  | first hAt hState => exact .first (hAt.leave hState (.error e)) nofun
  | second hAt hState =>
    have hKeeps : Keeps a (a.leave attempt.path (.error e)) :=
      .leave (by simpa [hAt.state?_eq] using hState) _
    rw [← hAt.secondKeys_eq hKeeps]
    exact .second (hAt.leave hState (.error e)) nofun

end Attempt

/-- Since the start, the template `path` has come to a pass that has planned `key`. -/
def Engaged (session : Session) (start now : Build) (path key : String) : Prop :=
  ∃ (attempt : session.Attempt) (keys : List String), attempt.path = path ∧
    attempt.start = start ∧ attempt.rule = session.rules.find? path ∧
    attempt.InPass now keys ∧ key ∈ keys

theorem Engaged.beside {key : String} (h : session.Engaged start a path key)
    (hAloof : Aloof path a b) (hKeeps : Keeps a b) : session.Engaged start b path key := by
  obtain ⟨attempt, keys, rfl, rfl, hRule, hPass, hKey⟩ := h
  exact ⟨attempt, keys, rfl, rfl, hRule, hPass.beside hAloof hKeeps, hKey⟩

theorem Engaged.registered {key : String} (h : session.Engaged start a path key) :
    (start.resources.get? path).isSome := by
  obtain ⟨attempt, keys, rfl, rfl, -⟩ := h
  simp [attempt.get]

/-! ## From a failure to its cause -/

/-- What fails at a resource itself: an observer that is told of it, or its rule. -/
inductive Fault (path : String) (rule : Option Rule) (e : CompileError) : Prop
  | hook {event : Event} {reason : String} (hCause : e = .hook event path reason)
  | uri (hCause : uriBy rule path = .error e)

/-- Why the compile of a resource fails with an error, while those on the stack are open: for a
fault of its own, or because a pass of it needs what cannot be had. -/
inductive Blames (session : Session) (start last : Build) (e : CompileError) :
    List String → String → Prop
  | unknown {stack : List String} {key : String} (hGet : start.resources.get? key = none)
      (hCause : e = .unknownRoot key) : Blames session start last e stack key
  | circle {stack : List String} {key : String} (hOpen : key ∈ stack)
      (hCause : e = Build.circle { stack } key) : Blames session start last e stack key
  | own {stack : List String} {key : String} (hRegistered : (start.resources.get? key).isSome)
      (hFault : Fault key (session.rules.find? key) e) : Blames session start last e stack key
  | missing {stack : List String} {key target : String} (hFresh : key ∉ stack)
      (hEngaged : session.Engaged start last key target)
      (hGet : start.resources.get? target = none) (hCause : e = .unresolved target key) :
      Blames session start last e stack key
  | destination {stack : List String} {key target : String} (hFresh : key ∉ stack)
      (hEngaged : session.Engaged start last key target)
      (hRegistered : (start.resources.get? target).isSome)
      (hCause : session.destinationOf target = .error e) : Blames session start last e stack key
  | within {stack : List String} {key target : String} {found : Option String}
      (hFresh : key ∉ stack) (hEngaged : session.Engaged start last key target)
      (hRegistered : (start.resources.get? target).isSome)
      (hTarget : session.destinationOf target = .ok found)
      (hInner : Blames session start last e (stack ++ [key]) target) :
      Blames session start last e stack key

/-- To close a compile on the stack touches none of the templates that are blamed within it. -/
theorem Blames.leave {key : String} (h : session.Blames start a e stack key)
    (hPath : path ∈ stack) (hState : a.resources.state? path ≠ some .compiled)
    (outcome : Outcome) : session.Blames start (a.leave path outcome) e stack key := by
  have hEngaged : ∀ {u k : String} {stack : List String}, path ∈ stack → u ∉ stack →
      session.Engaged start a u k → session.Engaged start (a.leave path outcome) u k := by
    intro u k stack hPath hFresh h
    have hNe : u ≠ path := fun hSame => hFresh (hSame ▸ hPath)
    exact h.beside ((Aloof.refl u a).leave hNe outcome) (.leave hState outcome)
  induction h with
  | unknown hGet hCause => exact .unknown hGet hCause
  | circle hOpen hCause => exact .circle hOpen hCause
  | own hRegistered hFault => exact .own hRegistered hFault
  | missing hFresh h hGet hCause =>
    exact .missing hFresh (hEngaged hPath hFresh h) hGet hCause
  | destination hFresh h hRegistered hCause =>
    exact .destination hFresh (hEngaged hPath hFresh h) hRegistered hCause
  | within hFresh h hRegistered hTarget _ ih =>
    exact .within hFresh (hEngaged hPath hFresh h) hRegistered hTarget
      (ih (List.mem_append_left _ hPath))

/-- In the midst of a call: the gate holds, what is pending has been left alone since the start,
and of the resources that are not open no more than `limit` are left. -/
structure Amid (start : Build) (stack : List String) (limit : Nat) (now : Build) : Prop
    extends Build.Inside stack limit now where
  gated : Gated (start.resources.entries.map Resource.path) now
  steady : Steady start now

namespace Amid

theorem write (h : Amid start stack limit a) (entry : Entry)
    (hEntry : ∀ q, ¬ entry.TellsOf q) : Amid start stack limit (a.write entry) where
  toInside := ⟨h.stack_eq, h.idle_le⟩
  gated := h.gated.change (.write a entry)
  steady := h.steady.trans fun q _ => (Aloof.refl q a).write (hEntry q)

theorem enter (h : Amid start stack limit a) (hPending : a.resources.state? path = some .pending)
    (kind : ResourceKind) :
    Amid start (stack ++ [path]) (a.enter path kind).idle (a.enter path kind) where
  toInside := ⟨by rw [Build.enter, h.stack_eq], Nat.le_refl _⟩
  gated := h.gated.change (.enter a path kind hPending)
  steady := by
    refine h.steady.trans fun q hq => (Aloof.refl q a).enter ?_ kind
    rintro rfl
    rw [Build.state?_enter_self hPending] at hq
    cases hq

theorem isOpen (h : Amid start stack limit a) (hPath : path ∈ stack) :
    a.resources.state? path = some .compiling :=
  (h.gated.compiling_iff path).mpr (h.stack_eq ▸ hPath)

/-- A task of a resource that is being compiled, which succeeds. -/
theorem task (hBuiltIn : session.compilers.BuiltIn) (h : Amid start stack limit a)
    (hPath : path ∈ stack) {α : Type} {x : Task α} (hOrderly : x.run.Orderly path) {result : α}
    (hRun : session.run session.compile x.run a = (.ok result, b)) :
    Amid start stack limit b := by
  have hBalanced := run_frame Build.balanced_isFrame
    (compile_frame Build.balanced_isFrame session) session x.run a
  rw [hRun] at hBalanced
  refine ⟨h.toInside.of_balanced hBalanced, h.gated.of_balanced hBalanced, h.steady.trans ?_⟩
  exact steady_run hOrderly (compile_frame Build.balanced_isFrame session)
    (fun key rule build last => steady_compileWithin hBuiltIn) (h.isOpen hPath) hRun

theorem get?_eq_none_iff (h : Amid start stack limit a) {key : String} :
    a.resources.get? key = none ↔ start.resources.get? key = none := by
  rw [Registry.get?_eq_none_iff, Registry.get?_eq_none_iff, h.gated.paths_eq]

theorem registered (h : Amid start stack limit a) {key : String} {r : Resource}
    (hGet : a.resources.get? key = some r) : (start.resources.get? key).isSome := by
  rw [Option.isSome_iff_ne_none, ne_eq, ← h.get?_eq_none_iff, hGet]
  nofun

/-- If edits cannot be collected, then because something that is planned cannot be had. -/
theorem collectEdits_eq_error (hBuiltIn : session.compilers.BuiltIn)
    (h : Amid start stack limit build) (hPath : path ∈ stack)
    {replacement : Planned → Resource → Text} {planned : List Planned}
    (hRun : session.run session.compile (collectEdits path replacement planned).run build =
      (.error e, last)) :
    ∃ p ∈ planned, ∃ middle, Amid start stack limit middle ∧
      session.requireBy session.compile path p.key middle = (.error e, last) := by
  induction planned generalizing build with
  | nil =>
    rw [collectEdits, run_task_pure] at hRun
    cases hRun
  | cons p planned ih =>
    simp only [collectEdits, run_task_bind_eq_error_iff, run_task_require, run_task_pure] at hRun
    rcases hRun with hFirst | ⟨⟨⟩, middle, hFirst, hRest⟩
    · exact ⟨p, List.mem_cons_self, build, h, hFirst⟩
    · have hMiddle := h.task hBuiltIn hPath (.require p.key) hFirst
      obtain ⟨r, hGet, -⟩ := (subordinate_compile hBuiltIn.tendsOwn).requireBy_compiled hFirst
      rcases hRest with hFail | ⟨_, fetched, hFetch, hFail | ⟨_, _, _, ⟨⟩⟩⟩
      · exact absurd hFail (run_fetch_ne_error hGet)
      · obtain ⟨-, rfl⟩ := run_task_fetch_eq_ok_iff.mp hFetch
        obtain ⟨p', hMem, hLater⟩ := ih hMiddle hFail
        exact ⟨p', List.mem_cons_of_mem _ hMem, hLater⟩

end Amid

/-! ## Faults -/

section

variable {compile : String → Option Rule → Build → Outcome × Build} {rule : Option Rule}

theorem notify_eq_error {event : Event} {resource : Resource} {number : Nat}
    {observers : List Observer}
    (h : notify event resource number observers build = (.error e, last)) :
    ∃ reason, e = .hook event resource.path reason := by
  induction observers generalizing number build with
  | nil => cases h
  | cons observer rest ih =>
    unfold notify at h
    split at h
    · dsimp only at h
      split at h
      · next reason _ =>
        cases h
        exact ⟨reason, rfl⟩
      · exact ih h
    · exact ih h

namespace Fault

theorem of_emit {event : Event} (hGet : (build.resources.get? path).isSome)
    (h : session.emit event path build = (.error e, last)) : Fault path rule e := by
  obtain ⟨resource, hResource⟩ := Option.isSome_iff_exists.mp hGet
  simp only [emit, hResource] at h
  obtain ⟨reason, hCause⟩ := notify_eq_error h
  exact .hook (Registry.path_of_get? hResource ▸ hCause)

theorem of_resolveUri (hGet : (build.resources.get? path).isSome)
    (h : session.resolveUri path rule build = (.error e, last)) : Fault path rule e := by
  unfold resolveUri at h
  cases hFirst : session.emit .preResolve path build with
  | mk outcome told =>
    rw [hFirst] at h
    cases outcome with
    | error e' =>
      cases h
      exact .of_emit hGet hFirst
    | ok =>
      cases hUri : uriBy rule path with
      | error e' =>
        rw [hUri] at h
        cases h
        exact .uri hUri
      | ok uri =>
        simp only [hUri] at h
        refine .of_emit ?_ h
        rw [Registry.get?_setUri, if_pos rfl, Option.isSome_map, Build.write,
          emit_eq_ok_resources hFirst]
        exact hGet

theorem of_assetCompiler {options : CompileOptions} (hGet : (build.resources.get? path).isSome)
    (h : session.run compile (assetCompiler options path rule).run build = (.error e, last)) :
    Fault path rule e := by
  simp only [assetCompiler, run_task_bind_eq_error_iff, run_task_emit, run_task_resolveUri] at h
  rcases h with hFail | ⟨⟨⟩, told, hTold, hFail | ⟨⟨⟩, compiled, hCompiled, hFail⟩⟩
  · exact .of_emit hGet hFail
  · exact .of_emit (emit_eq_ok_resources hTold ▸ hGet) hFail
  · refine .of_resolveUri ?_ hFail
    rw [emit_eq_ok_resources hCompiled, emit_eq_ok_resources hTold]
    exact hGet

end Fault

end

/-! ## Failures of a template -/

namespace Attempt

variable {attempt : session.Attempt} {outer : List String}

/-- Carried out in the midst of a call, from a build that satisfies `P` on, a task of the template
leads to a build that satisfies `Q`. If it fails, it is known why. -/
def Explains (attempt : session.Attempt) (outer : List String) (limit : Nat) {α : Type}
    (P : Build → Prop) (x : Task α) (Q : α → Build → Prop) : Prop :=
  ∀ build, P build → Amid attempt.start (outer ++ [attempt.path]) limit build →
    match session.run session.compile x.run build with
    | (.ok a, last) => Q a last ∧ Amid attempt.start (outer ++ [attempt.path]) limit last
    | (.error e, last) =>
      session.Blames attempt.start (last.leave attempt.path (.error e)) e outer attempt.path

theorem blames_own (hRule : attempt.rule = session.rules.find? attempt.path)
    (hFault : Fault attempt.path attempt.rule e) :
    session.Blames attempt.start last e outer attempt.path :=
  .own (by simp [attempt.get]) (hRule ▸ hFault)

namespace Explains

theorem bind {α β : Type} {P : Build → Prop} {Q : α → Build → Prop} {R : β → Build → Prop}
    {x : Task α} {f : α → Task β} (hx : attempt.Explains outer limit P x Q)
    (hf : ∀ a, attempt.Explains outer limit (Q a) (f a) R) :
    attempt.Explains outer limit P (x >>= f) R := by
  intro build hBuild hAmid
  have hFirst := hx build hBuild hAmid
  rw [run_task_bind]
  generalize session.run session.compile x.run build = answer at hFirst ⊢
  obtain ⟨answer, middle⟩ := answer
  cases answer with
  | ok a => exact hf a middle hFirst.1 hFirst.2
  | error e' => exact hFirst

variable (hBuiltIn : session.compilers.BuiltIn)
include hBuiltIn

/-- What is known of a task that succeeds is known already. -/
theorem of_leads {α : Type} {P : Build → Prop} {x : Task α} {Q : α → Build → Prop}
    (hLeads : attempt.Leads session.compile session.compileTrail P x Q)
    (hOrderly : x.run.Orderly attempt.path)
    (hFail : ∀ build e last, P build → Amid attempt.start (outer ++ [attempt.path]) limit build →
      session.run session.compile x.run build = (.error e, last) →
      session.Blames attempt.start (last.leave attempt.path (.error e)) e outer attempt.path) :
    attempt.Explains outer limit P x Q := by
  intro build hBuild hAmid
  cases hRun : session.run session.compile x.run build with
  | mk answer last =>
    cases answer with
    | ok a => exact ⟨hLeads.ok hBuild hRun, hAmid.task hBuiltIn (by simp) hOrderly hRun⟩
    | error e => exact hFail build e last hBuild hAmid hRun

variable {stage : Stage} {told : List Event}

theorem fetch : attempt.Explains outer limit (attempt.At stage told .compiling)
    (Task.fetch attempt.path) fun r build => attempt.At stage told .compiling build ∧
      build.resources.get? attempt.path = some r := by
  refine of_leads hBuiltIn (.fetch fun build h => h.isSome_get?) (.fetch attempt.path) ?_
  intro build e last hBuild _ hRun
  obtain ⟨r, hGet⟩ := Option.isSome_iff_exists.mp hBuild.isSome_get?
  exact absurd hRun (run_fetch_ne_error hGet)

variable (hRule : attempt.rule = session.rules.find? attempt.path)
include hRule

theorem emit {event : Event} (hStage : event.stage = stage)
    (hThrough : told ++ [event] <+: stage.through) (hStopped : stage ≠ .finished) :
    attempt.Explains outer limit (attempt.At stage told .compiling)
      (Task.emit event attempt.path) fun _ => attempt.At stage (told ++ [event]) .compiling :=
  of_leads hBuiltIn (.emit hStage hThrough hStopped) (.emit event) fun _ _ _ hBuild _ hRun =>
    blames_own hRule (.of_emit hBuild.isSome_get? hRun)

theorem resolveUri :
    attempt.Explains outer limit (attempt.At .rewritten [.preCompile, .compiled] .compiling)
      (Task.resolveUri attempt.path attempt.rule)
      fun _ => attempt.At .located Event.order .compiling :=
  of_leads hBuiltIn .resolveUri (.resolveUri attempt.rule) fun _ _ _ hBuild _ hRun =>
    blames_own hRule (.of_resolveUri hBuild.isSome_get? hRun)

variable (hFresh : attempt.path ∉ outer)
  (hCompile : ∀ key e inner last, Amid attempt.start (outer ++ [attempt.path]) limit inner →
    session.compile key (session.rules.find? key) inner = (.error e, last) →
    session.Blames attempt.start last e (outer ++ [attempt.path]) key)
include hFresh hCompile

/-- If edits cannot be collected, then because of one of the resources that are planned. -/
theorem blames_of_collectEdits {replacement : Planned → Resource → Text} {planned : List Planned}
    (hPass : attempt.InPass build (planned.map Planned.key))
    (hAmid : Amid attempt.start (outer ++ [attempt.path]) limit build)
    (h : session.run session.compile (collectEdits attempt.path replacement planned).run build =
      (.error e, last)) :
    session.Blames attempt.start (last.leave attempt.path (.error e)) e outer attempt.path := by
  have hSub := subordinate_compile hBuiltIn.tendsOwn
  have hOpen := hAmid.isOpen List.mem_concat_self
  obtain ⟨hAloof, hKeeps⟩ := hSub.beside_collectEdits hOpen h
  obtain ⟨p, hPlanned, middle, hMiddle, hRequire⟩ :=
    hAmid.collectEdits_eq_error hBuiltIn List.mem_concat_self h
  have hEngaged : session.Engaged attempt.start (last.leave attempt.path (.error e)) attempt.path
      p.key := ⟨attempt, _, rfl, rfl, hRule, (hPass.beside hAloof hKeeps).leave e,
        List.mem_map_of_mem hPlanned⟩
  rcases requireBy_eq_error hRequire with ⟨hGet, rfl, rfl⟩ |
    ⟨r, hGet, ⟨hTarget, rfl⟩ | ⟨found, hTarget, hLast⟩⟩
  · exact .missing hFresh hEngaged (hMiddle.get?_eq_none_iff.mp hGet) rfl
  · exact .destination hFresh hEngaged (hMiddle.registered hGet) hTarget
  · refine .within hFresh hEngaged (hMiddle.registered hGet) hTarget ?_
    refine (hCompile p.key e _ last (hMiddle.write _ fun _ => id) hLast).leave
      List.mem_concat_self ?_ (.error e)
    rw [hAloof.state?_eq, hOpen]
    nofun

theorem identityPass :
    attempt.Explains outer limit (attempt.At .untouched [.preCompile] .compiling)
      (AssetLoom.identityPass session.options attempt.path)
      fun _ => attempt.At .rewritten [.preCompile] .compiling := by
  have hSub := subordinate_compile hBuiltIn.tendsOwn
  refine of_leads hBuiltIn (.identityPass hSub) (.identityPass session.options) ?_
  intro build e last hAt hAmid hRun
  obtain ⟨v, hVersion, hGet⟩ := hAt.version
  cases hVersion with
  | untouched =>
    have hEdits := run_identityPass_eq_error hGet
      (fun hEdits => (hSub.beside_collectEdits hAt.state?_eq hEdits).1.get?_eq.trans hGet) hRun
    exact blames_of_collectEdits hBuiltIn hRule hFresh hCompile (.first hAt nofun) hAmid hEdits

theorem relativePass :
    attempt.Explains outer limit (attempt.At .located Event.order .compiling)
      (AssetLoom.relativePass attempt.path)
      fun _ => attempt.At .finished Event.order .compiling := by
  have hSub := subordinate_compile hBuiltIn.tendsOwn
  refine of_leads hBuiltIn (.relativePass hSub) .relativePass ?_
  intro build e last hAt hAmid hRun
  obtain ⟨v, hVersion, hGet⟩ := hAt.version
  cases hVersion with
  | located hFirst hUri =>
    have hEdits := run_relativePass_eq_error hGet
      (fun hEdits => (hSub.beside_collectEdits hAt.state?_eq hEdits).1.get?_eq.trans hGet) hRun
    exact blames_of_collectEdits hBuiltIn hRule hFresh hCompile (.second hAt nofun) hAmid hEdits

theorem templateCompiler :
    attempt.Explains outer limit (attempt.At .untouched [] .compiling)
      (AssetLoom.templateCompiler session.options attempt.path attempt.rule)
      fun _ => attempt.At .finished Event.order .compiling := by
  have hPreCompile : attempt.Explains outer limit (attempt.At .untouched [] .compiling)
      (Task.emit .preCompile attempt.path)
      fun _ => attempt.At .untouched [.preCompile] .compiling :=
    emit hBuiltIn hRule rfl (by decide) (by decide)
  have hCompiled : attempt.Explains outer limit
      (attempt.At .rewritten [.preCompile] .compiling) (Task.emit .compiled attempt.path)
      fun _ => attempt.At .rewritten [.preCompile, .compiled] .compiling :=
    emit hBuiltIn hRule rfl (by decide) (by decide)
  refine hPreCompile.bind fun _ => (fetch hBuiltIn).bind fun r => ?_
  rintro build ⟨hAt, hGet⟩ hAmid
  simp only [hAt.permanent hGet, Bool.not_false, if_true]
  refine ((identityPass hBuiltIn hRule hFresh hCompile).bind fun _ =>
    hCompiled.bind fun _ => ?_) build hAt hAmid
  exact (resolveUri hBuiltIn hRule).bind fun _ => relativePass hBuiltIn hRule hFresh hCompile

end Explains

end Attempt

/-! ## Failures at any depth -/

section

variable (hBuiltIn : session.compilers.BuiltIn)
include hBuiltIn

/-- Behind the gate, a resource fails by itself, or in a pass. -/
theorem Amid.blames (h : Amid start stack limit build) {r : Resource}
    (hGet : build.resources.get? path = some r) (hState : r.state = .pending)
    (hCompile : ∀ key e inner last,
      Amid start (stack ++ [path]) (build.enter path r.kind).idle inner →
      session.compile key (session.rules.find? key) inner = (.error e, last) →
      session.Blames start last e (stack ++ [path]) key)
    (hRun : session.run session.compile
      (session.compilers.forKind r.kind session.options path (session.rules.find? path)).run
        (build.enter path r.kind) = (.error e, last)) :
    session.Blames start (last.leave path (.error e)) e stack path := by
  have hPending := Registry.state?_eq_some_iff.mpr ⟨r, hGet, hState⟩
  have hRegistered := h.registered hGet
  have hBusy := get?_enter_self hGet r.kind
  by_cases hPlain : r.permanent = true ∨ session.compilers.forKind r.kind = assetCompiler
  · rw [run_forKind_of_plain hBuiltIn hBusy hPlain] at hRun
    exact .own hRegistered (.of_assetCompiler (by simp [hBusy]) hRun)
  · obtain ⟨hPermanent, hKind⟩ := not_or.mp hPlain
    have hTemplate := (hBuiltIn r.kind).resolve_right hKind
    have hAloof := h.steady path hPending
    let attempt : session.Attempt :=
      { path, rule := session.rules.find? path, start, template := r
        get := hAloof.get?_eq ▸ hGet
        pending := hState, permanent := by simpa using hPermanent, compiler := hTemplate }
    have hFresh : path ∉ stack := fun hOpen => by
      rw [h.isOpen hOpen] at hPending
      cases hPending
    have hAt : attempt.At .untouched [] .compiling (build.enter path r.kind) :=
      Attempt.at_enter hAloof
    have hBlames := Attempt.Explains.templateCompiler hBuiltIn rfl hFresh hCompile _ hAt
      (h.enter hPending r.kind)
    rw [hTemplate] at hRun
    rwa [hRun] at hBlames

/-- Each failure has such a cause. -/
theorem Amid.compile_blames (h : Amid start stack limit build)
    (hCompile : session.compile path (session.rules.find? path) build = (.error e, last)) :
    session.Blames start last e stack path := by
  -- By induction on a bound for the number of resources that are not being compiled.
  induction limit using Nat.strongRecOn generalizing path stack build last e with
  | ind limit ih =>
    rcases compile_eq_error hCompile with ⟨hMissing, rfl, rfl⟩ |
      ⟨r, hGet, ⟨hState, rfl, rfl⟩ | ⟨closing, hState, hRun, rfl⟩⟩
    · exact .unknown (h.get?_eq_none_iff.mp hMissing) rfl
    · have hOpen := (h.gated.compiling_iff path).mp
        (Registry.state?_eq_some_iff.mpr ⟨r, hGet, hState⟩)
      exact .circle (h.stack_eq ▸ hOpen) (by rw [Build.circle, h.stack_eq, Build.circle])
    · have hLess := Build.idle_enter_lt r.kind
        (Registry.state?_eq_some_iff.mpr ⟨r, hGet, hState⟩)
      refine h.blames hBuiltIn hGet hState (fun key e inner last hInner hFail => ?_) hRun
      exact ih _ (Nat.lt_of_lt_of_le hLess h.idle_le) hInner hFail

end

end Session

end AssetLoom
