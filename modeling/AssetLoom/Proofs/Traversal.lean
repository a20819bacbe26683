import AssetLoom.Proofs.Completion
import AssetLoom.Proofs.Lifecycle

/-!
# The events of a compile

The events of a compile are those of a traversal (`Session.Traversal`). A template is entered, then
what its first pass needs is traversed, then its URI is resolved, then what its second pass needs
is traversed. What is compiled when it is reached is passed over.

`compile_traversal` says so of every compile that succeeds, from any build. What it says of each
single resource is in `AssetLoom.Proofs.Lifecycle`.
-/

namespace AssetLoom

namespace Session

open Build (Emits)

/-- What is planned by a pass, each with the rule that applies to it. -/
def dependencies (session : Session) (planned : List Planned) : List (String × Option Rule) :=
  planned.map fun p => (p.key, session.rules.find? p.key)

/-- The events of compiles by given rules, one after the other, and the views before and after. -/
inductive Traversal (session : Session) :
    List (String × Option Rule) → View → List (Event × String) → View → Prop
  | done (view : View) : Traversal session [] view [] view
  /-- What is compiled is passed over. -/
  | skip {path : String} {rule : Option Rule} {rest : List (String × Option Rule)}
      {view last : View} {events : List (Event × String)}
      (hCompiled : View.Compiled view path) (hRest : Traversal session rest view events last) :
      Traversal session ((path, rule) :: rest) view events last
  /-- An asset, or a permanent template, needs nothing. -/
  | plain {path uri : String} {rule : Option Rule} {rest : List (String × Option Rule)}
      {view last : View} {r : Resource} {events : List (Event × String)}
      (hGet : view path = some r) (hPending : r.state = .pending)
      (hPlain : r.permanent = true ∨ session.compilers.forKind r.kind = assetCompiler)
      (hUri : uriBy rule path = .ok uri)
      (hRest : Traversal session rest
        (Function.update view path (some { r with uri := some uri, state := .compiled }))
        events last) :
      Traversal session ((path, rule) :: rest) view
        ([(.preCompile, path), (.compiled, path), (.preResolve, path), (.resolved, path)] ++ events)
        last
  /-- What the two passes over a template need is traversed while the template is compiling. -/
  | template {path uri : String} {rule : Option Rule} {rest : List (String × Option Rule)}
      {view view₁ view₂ last : View} {r : Resource} {content : ByteArray}
      {first second events : List (Event × String)}
      (hGet : view path = some r) (hPending : r.state = .pending) (hPermanent : r.permanent = false)
      (hTemplate : session.compilers.forKind r.kind = templateCompiler)
      (hFirst : Traversal session
        (session.dependencies (identityPlan session.options path r.text))
        (Function.update view path (some { r with state := .compiling })) first view₁)
      (hContent : content = identityContent session.options path (View.resource view₁) r.content)
      (hUri : uriBy rule path = .ok uri)
      (hSecond : Traversal session (session.dependencies (relativePlan path (Text.decode content)))
        (Function.update view₁ path (some { r with content, uri := some uri, state := .compiling }))
        second view₂)
      (hRest : Traversal session rest
        (Function.update view₂ path (some { r with
          content := relativeContent path uri (View.resource view₂) content
          uri := some uri
          state := .compiled })) events last) :
      Traversal session ((path, rule) :: rest) view
        ([(.preCompile, path)] ++ first ++
          [(.compiled, path), (.preResolve, path), (.resolved, path)] ++ second ++ events)
        last

variable {session : Session} {keys rest : List (String × Option Rule)} {view middle last : View}
  {events others : List (Event × String)}

theorem Traversal.append (h : session.Traversal keys view events middle)
    (h' : session.Traversal rest middle others last) :
    session.Traversal (keys ++ rest) view (events ++ others) last := by
  induction h with
  | done view => exact h'
  | skip hCompiled _ ih => exact .skip hCompiled (ih h')
  | plain hGet hPending hPlain hUri _ ih =>
    rw [List.append_assoc]
    exact .plain hGet hPending hPlain hUri (ih h')
  | template hGet hPending hPermanent hTemplate hFirst hContent hUri hSecond _ _ _ ih =>
    rw [List.append_assoc]
    exact .template hGet hPending hPermanent hTemplate hFirst hContent hUri hSecond (ih h')

theorem emits_of_emit {event : Event} {path : String} {build last : Build}
    (hGet : (build.resources.get? path).isSome)
    (h : session.emit event path build = (.ok (), last)) : Emits build [(event, path)] last := by
  have := emits_emit session hGet event
  rwa [h] at this

theorem emits_of_resolveUri {path : String} {rule : Option Rule} {build last : Build}
    (hGet : (build.resources.get? path).isSome)
    (h : session.resolveUri path rule build = (.ok (), last)) :
    Emits build [(.preResolve, path), (.resolved, path)] last := by
  obtain ⟨told, uri, hTold, -, hLast⟩ := resolveUri_eq_ok_iff.mp h
  have hWritten : Emits told [] { told.write (.resolved path uri) with
      resources := told.resources.setUri path uri } := Build.emits_write told rfl
  have hSet : ((told.resources.setUri path uri).get? path).isSome := by
    rw [emit_eq_ok_resources hTold, Registry.get?_setUri, if_pos rfl]
    simpa using hGet
  exact (emits_of_emit hGet hTold).trans (hWritten.trans (emits_of_emit hSet hLast))

variable {compile : String → Option Rule → Build → Outcome × Build}

theorem emits_storeIdentity {path : String} {before output : Text} {build last : Build}
    (h : session.run compile (if output ≠ before then Task.replaceContent path output
      else pure () : Task Unit).run build = (.ok (), last)) : Emits build [] last := by
  split at h
  · have hEmits := emits_replaceContent path output build
    rwa [show replaceContent path output build = _ from h] at hEmits
  · cases h
    exact .refl build

theorem emits_storeRelative {path : String} {edits : List Edit} {output : Text}
    {build last : Build}
    (h : session.run compile (if edits ≠ [] then do
        Task.countEdits .relative path edits.length
        Task.replaceContent path output
      else pure () : Task Unit).run build = (.ok (), last)) : Emits build [] last := by
  split at h
  · obtain ⟨⟨⟩, _, ⟨⟩, hReplace⟩ := (run_task_bind_eq_ok_iff ..).mp h
    have hEmits := emits_replaceContent path output
      (build.write (.edits .relative path edits.length))
    rw [show replaceContent path output _ = _ from hReplace] at hEmits
    exact (Build.emits_write build rfl).trans hEmits
  · cases h
    exact .refl build

section

variable
  (hCompletes : ∀ key build last, compile key (session.rules.find? key) build = (.ok (), last) →
    session.Completes [key] build.resources.get? last.resources.get?)
  (hCompile : ∀ path rule build last, compile path rule build = (.ok (), last) →
    ∃ events, Emits build events last ∧
      session.Traversal [(path, rule)] build.resources.get? events last.resources.get?)
include hCompile

theorem requireBy_traversal {referrer target : String} {build last : Build}
    (h : session.requireBy compile referrer target build = (.ok (), last)) :
    ∃ events, Emits build events last ∧
      session.Traversal [(target, session.rules.find? target)] build.resources.get? events
        last.resources.get? := by
  rcases requireBy_eq_ok h with ⟨r, hGet, hState, rfl⟩ | hLast
  · exact ⟨[], .refl _, .skip ⟨r, hGet, hState⟩ (.done _)⟩
  · obtain ⟨events, hEmits, hTraversal⟩ := hCompile _ _ (build.write _) _ hLast
    exact ⟨events, (Build.emits_write build rfl).trans hEmits, hTraversal⟩

theorem collectEdits_traversal {path : String} {replacement : Planned → Resource → Text}
    {planned : List Planned} {build last : Build} {edits : List Edit}
    (h : session.run compile (collectEdits path replacement planned).run build =
      (.ok edits, last)) :
    ∃ events, Emits build events last ∧
      session.Traversal (session.dependencies planned) build.resources.get? events
        last.resources.get? := by
  induction planned generalizing build edits with
  | nil =>
    rw [collectEdits, run_task_pure] at h
    cases h
    exact ⟨[], .refl _, .done _⟩
  | cons p planned ih =>
    obtain ⟨middle, r, others, hRequire, -, hOthers, -⟩ := run_collectEdits_cons_eq_ok_iff.mp h
    obtain ⟨events, hEmits, hFirst⟩ := requireBy_traversal hCompile hRequire
    obtain ⟨later, hLater, hRest⟩ := ih hOthers
    exact ⟨events ++ later, hEmits.trans hLater, hFirst.append hRest⟩

include hCompletes

theorem identityPass_traversal {options : CompileOptions} {path : String} {build last : Build}
    {r : Resource} (hGet : build.resources.get? path = some r) (hState : r.state = .compiling)
    (h : session.run compile (identityPass options path).run build = (.ok (), last)) :
    ∃ view events, Emits build events last ∧
      session.Traversal (session.dependencies (identityPlan options path r.text))
        build.resources.get? events view ∧
      last.resources.get? = Function.update view path (some { r with
        content := identityContent options path (View.resource view) r.content }) := by
  obtain ⟨edits, middle, hEdits, hStore⟩ := (run_identityPass_eq_ok_iff hGet).mp h
  obtain ⟨hCompleted, rfl⟩ := collectEdits_completes hCompletes hEdits
  obtain ⟨events, hEmits, hTraversal⟩ := collectEdits_traversal hCompile hEdits
  have hStill : middle.resources.get? path = some r :=
    hCompleted.advances.keeps hGet (by simp [hState])
  have hSilent : Emits middle [] last :=
    (Build.emits_write middle rfl).trans (emits_storeIdentity hStore)
  obtain ⟨_, hLast, hView⟩ := run_storeIdentity session compile (middle.write _) hStill _
  rw [hLast] at hStore
  cases hStore
  have hAll := hEmits.trans hSilent
  rw [List.append_nil] at hAll
  exact ⟨_, events, hAll, hTraversal, hView⟩

theorem relativePass_traversal {path uri : String} {build last : Build} {r : Resource}
    (hGet : build.resources.get? path = some r) (hState : r.state = .compiling)
    (hUri : r.uri = some uri)
    (h : session.run compile (relativePass path).run build = (.ok (), last)) :
    ∃ view events, Emits build events last ∧
      session.Traversal (session.dependencies (relativePlan path r.text))
        build.resources.get? events view ∧
      last.resources.get? = Function.update view path (some { r with
        content := relativeContent path uri (View.resource view) r.content }) := by
  obtain ⟨edits, middle, hEdits, hStore⟩ := (run_relativePass_eq_ok_iff hGet).mp h
  rw [hUri, Option.getD_some] at hEdits
  obtain ⟨hCompleted, rfl⟩ := collectEdits_completes hCompletes hEdits
  obtain ⟨events, hEmits, hTraversal⟩ := collectEdits_traversal hCompile hEdits
  have hStill : middle.resources.get? path = some r :=
    hCompleted.advances.keeps hGet (by simp [hState])
  have hSilent : Emits middle [] last := emits_storeRelative hStore
  obtain ⟨_, hLast, hView⟩ := run_storeRelative session compile middle hStill _ _
  rw [hLast] at hStore
  cases hStore
  simp only [passEdits_eq_nil_iff] at hView
  have hAll := hEmits.trans hSilent
  rw [List.append_nil] at hAll
  exact ⟨_, events, hAll, hTraversal, hView⟩

theorem template_traversal {path : String} {rule : Option Rule} {build last : Build} {r : Resource}
    (hGet : build.resources.get? path = some r) (hPending : r.state = .pending)
    (hPermanent : r.permanent = false)
    (hTemplate : session.compilers.forKind r.kind = templateCompiler)
    (h : session.run compile (templateCompiler session.options path rule).run
      (build.enter path r.kind) = (.ok (), last)) :
    ∃ events, Emits build events (last.leave path (.ok ())) ∧
      session.Traversal [(path, rule)] build.resources.get? events
        (last.leave path (.ok ())).resources.get? := by
  have hEnter := get?_enter hGet r.kind
  have hBusy := get?_enter_self hGet r.kind
  obtain ⟨told, passed, compiled, resolved, hTold, hPassed, hCompiled, hResolved, hLast⟩ :=
    (run_templateCompiler_eq_ok_iff hBusy hPermanent).mp h
  have hRegistered : ((build.enter path r.kind).resources.get? path).isSome := by simp [hBusy]
  have hFirstTold := emits_of_emit hRegistered hTold
  rw [← emit_eq_ok_resources hTold] at hBusy hEnter
  obtain ⟨view₁, first, hFirstEmits, hFirst, hView₁⟩ :=
    identityPass_traversal hCompletes hCompile hBusy rfl hPassed
  rw [← emit_eq_ok_resources hCompiled] at hView₁
  have hStill : (compiled.resources.get? path).isSome := by simp [hView₁]
  have hStillPassed : (passed.resources.get? path).isSome :=
    emit_eq_ok_resources hCompiled ▸ hStill
  obtain ⟨uri, hUri, hView⟩ := resolveUri_view (by rw [hView₁, Function.update_self]) hResolved
  rw [hView₁, Function.update_idem] at hView
  have hOpen := congrFun hView path
  rw [Function.update_self] at hOpen
  obtain ⟨view₂, second, hSecondEmits, hSecond, hView₂⟩ :=
    relativePass_traversal hCompletes hCompile hOpen rfl rfl hLast
  rw [hEnter] at hFirst
  rw [hView] at hSecond
  have hEmits := (Build.emits_enter build path r.kind).trans
    (hFirstTold.trans (hFirstEmits.trans ((emits_of_emit hStillPassed hCompiled).trans
      ((emits_of_resolveUri hStill hResolved).trans
        (hSecondEmits.trans (Build.emits_leave last path (.ok ())))))))
  rw [get?_leave_ok (by rw [hView₂, Function.update_self]), hView₂, Function.update_idem]
  refine ⟨_, ?_, .template hGet hPending hPermanent hTemplate hFirst rfl hUri hSecond (.done _)⟩
  simpa using hEmits

end

theorem plain_traversal {path : String} {rule : Option Rule} {build last : Build} {r : Resource}
    (hGet : build.resources.get? path = some r) (hPending : r.state = .pending)
    (hPlain : r.permanent = true ∨ session.compilers.forKind r.kind = assetCompiler)
    (h : session.run compile (assetCompiler session.options path rule).run
      (build.enter path r.kind) = (.ok (), last)) :
    ∃ events, Emits build events (last.leave path (.ok ())) ∧
      session.Traversal [(path, rule)] build.resources.get? events
        (last.leave path (.ok ())).resources.get? := by
  obtain ⟨told, compiled, hTold, hCompiled, hResolved⟩ := run_assetCompiler_eq_ok_iff.mp h
  have hView : compiled.resources.get? =
      Function.update build.resources.get? path (some { r with state := .compiling }) := by
    rw [emit_eq_ok_resources hCompiled, emit_eq_ok_resources hTold, get?_enter hGet]
  have hStill : (compiled.resources.get? path).isSome := by simp [hView]
  have hStillTold : (told.resources.get? path).isSome := emit_eq_ok_resources hCompiled ▸ hStill
  have hOpen : ((build.enter path r.kind).resources.get? path).isSome :=
    emit_eq_ok_resources hTold ▸ hStillTold
  obtain ⟨uri, hUri, hLast⟩ := resolveUri_view (by rw [hView, Function.update_self]) hResolved
  have hEmits := (Build.emits_enter build path r.kind).trans
    ((emits_of_emit hOpen hTold).trans ((emits_of_emit hStillTold hCompiled).trans
      ((emits_of_resolveUri hStill hResolved).trans (Build.emits_leave last path (.ok ())))))
  rw [get?_leave_ok (by rw [hLast, Function.update_self]), hLast, hView,
    Function.update_idem, Function.update_idem]
  refine ⟨_, ?_, .plain hGet hPending hPlain hUri (.done _)⟩
  simpa using hEmits

theorem compileWithin_traversal (hBuiltIn : session.compilers.BuiltIn) {depth : Nat}
    {path : String} {rule : Option Rule} {build last : Build}
    (h : session.compileWithin depth path rule build = (.ok (), last)) :
    ∃ events, Emits build events last ∧
      session.Traversal [(path, rule)] build.resources.get? events last.resources.get? := by
  induction depth using Nat.strongRecOn generalizing path rule build last with
  | ind depth ih =>
    rcases compileWithin_eq_ok h with ⟨r, hGet, hState, rfl⟩ |
      ⟨inner, r, closing, rfl, hGet, hPending, hRun, rfl⟩
    · exact ⟨[], .refl _, .skip ⟨r, hGet, hState⟩ (.done _)⟩
    · have hBusy := get?_enter_self hGet r.kind
      by_cases hPlain : r.permanent = true ∨ session.compilers.forKind r.kind = assetCompiler
      · exact plain_traversal hGet hPending hPlain
          ((run_forKind_of_plain hBuiltIn hBusy hPlain).symm.trans hRun)
      · obtain ⟨hPermanent, hKind⟩ := not_or.mp hPlain
        have hTemplate := (hBuiltIn r.kind).resolve_right hKind
        rw [hTemplate] at hRun
        exact template_traversal (fun _ _ _ => compileWithin_completes hBuiltIn)
          (fun _ _ _ _ => ih inner (Nat.lt_succ_self inner)) hGet hPending
          (by simpa using hPermanent) hTemplate hRun

/-- The traversal of a pending resource starts with it. -/
theorem Traversal.head_of_pending {path : String} {rule : Option Rule}
    (h : session.Traversal ((path, rule) :: rest) view events last) {r : Resource}
    (hGet : view path = some r) (hPending : r.state = .pending) :
    events.head? = some (.preCompile, path) := by
  cases h with
  | skip hCompiled _ =>
    obtain ⟨r', hGet', hState⟩ := hCompiled
    rw [hGet] at hGet'
    cases hGet'
    rw [hPending] at hState
    cases hState
  | plain => rfl
  | template => rfl

/-- The events of a compile, whatever the build, the rule and the observers. If the compile succeeds
they are those of a traversal, which starts with the resource itself if it was pending. Then each
resource has either no event or all four in their order, the latter exactly if it was pending before
and is compiled after. If the compile fails, each resource has the first ones of the four, or
none. -/
theorem compile_traversal (session : Session) (hBuiltIn : session.compilers.BuiltIn)
    {path : String} {rule : Option Rule} {build last : Build} {outcome : Outcome}
    (h : session.compile path rule build = (outcome, last)) :
    ∃ events, last.journal.emissions = build.journal.emissions ++ events ∧
      (outcome = .ok () →
        session.Traversal [(path, rule)] build.resources.get? events last.resources.get? ∧
        (build.resources.state? path = some .pending →
          events.head? = some (.preCompile, path)) ∧
        ∀ q, (eventsOf q events = [] ∨ eventsOf q events = Event.order) ∧
          (eventsOf q events ≠ [] ↔ build.resources.state? q = some .pending ∧
            last.resources.state? q = some .compiled)) ∧
      ((∃ e, outcome = .error e) → ∀ q, eventsOf q events <+: Event.order) := by
  obtain ⟨events, hEmits, hStretch⟩ := stretches_compile hBuiltIn path rule build
  rw [h] at hEmits hStretch
  refine ⟨events, hEmits, ?_, fun _ q => (hStretch q).isPrefix⟩
  rintro rfl
  obtain ⟨events', hEmits', hTraversal⟩ := compileWithin_traversal hBuiltIn h
  obtain rfl : events = events' := List.append_cancel_left (hEmits.symm.trans hEmits')
  refine ⟨hTraversal, ?_, fun q => ?_⟩
  · intro hPending
    obtain ⟨r, hGet, hState⟩ := Registry.state?_eq_some_iff.mp hPending
    exact hTraversal.head_of_pending hGet hState
  · rcases hStretch q with ⟨hNone, hSame⟩ | ⟨hOrder, hBefore, hAfter⟩
    · refine ⟨.inl hNone, fun hSome => absurd hNone hSome, ?_⟩
      rintro ⟨hBefore, hAfter⟩
      rw [hSame, hBefore] at hAfter
      cases hAfter
    · exact ⟨.inr hOrder, fun _ => ⟨hBefore, hAfter⟩, fun _ => by rw [hOrder]; decide⟩

/-- A page, the image that it shows and the template that it includes. -/
theorem compile_traversal_page :
    let page : Resource :=
      { path := "a.tpl"
        kind := .template
        content := ("<img src=\"b.png\"/>\x7b\x7binclude file=\"c.tpl\"\x7d\x7d").toUTF8 }
    let build : Build := { resources :=
      { entries := [page, { path := "b.png", kind := .image, content := .empty },
          { path := "c.tpl", kind := .template, content := "-".toUTF8 }]
        paths_nodup := by decide } }
    let last := (Session.compile {} page.path none build).2
    ∃ events, last.journal.emissions = events ∧
      Session.Traversal {} [(page.path, none)] build.resources.get? events last.resources.get? ∧
      events.head? = some (.preCompile, page.path) ∧ eventsOf "c.tpl" events = Event.order := by
  intro page build last
  have hRun : (Session.compile {} page.path none build).1.isOk = true ∧
      last.resources.state? "c.tpl" = some .compiled := by decide +kernel
  obtain ⟨hOutcome, hCompiled⟩ := hRun
  obtain ⟨_, hLast⟩ := exists_ok_iff_isOk.mpr hOutcome
  have hOk : Session.compile {} page.path none build = (.ok (), last) := by
    rw [show last = _ from congrArg Prod.snd hLast]
    exact hLast
  obtain ⟨events, hEvents, hShape, -⟩ := compile_traversal {} Compilers.builtIn_default hOk
  obtain ⟨hTraversal, hHead, hEach⟩ := hShape rfl
  have hPending : build.resources.state? page.path = some .pending ∧
      build.resources.state? "c.tpl" = some .pending := by decide
  refine ⟨events, hEvents, hTraversal, hHead hPending.1, ?_⟩
  exact (hEach "c.tpl").1.resolve_left ((hEach "c.tpl").2.mpr ⟨hPending.2, hCompiled⟩)

end Session

end AssetLoom
