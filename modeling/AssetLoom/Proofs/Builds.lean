import AssetLoom.Proofs.Completion
import Mathlib.Logic.Relation

/-!
# Builds without a session

`Session.Builds` says what a resource becomes, by recursion over what it needs: without a gate,
without a stack, and with every resource built anew wherever it is needed. It is a least fixed
point, so nothing that needs itself in a circle is built (`Builds.not_circular`).

A session whose observers never fail compiles exactly what can be built, and to what it is built
to (`compileRoot_ok_iff_builds`). In one direction, the resources that are compiled are always
what they are built to (`Settled.completes`), so one that is compiled already can be used as it
is. In the other direction, what is needed of a resource that can be built is never one of the
resources that are being compiled (`Builds.compile_ok`).
-/

namespace AssetLoom

namespace Session

/-- What a resource becomes when everything that it needs is built. -/
inductive Builds (session : Session) (sources : View) : String → Resource → Prop
  | intro {path : String} {r made : Resource} {keys : List String}
      {dependency : String → Resource} (hGet : sources path = some r)
      (hMakes : session.Makes (session.rules.find? path) dependency r keys made)
      (hKeys : ∀ key ∈ keys, Builds session sources key (dependency key)) :
      Builds session sources path made

/-- The build of one resource uses another one. -/
def Uses (session : Session) (sources : View) (path key : String) : Prop :=
  ∃ r made keys dependency, sources path = some r ∧
    session.Makes (session.rules.find? path) dependency r keys made ∧
    (∀ k ∈ keys, session.Builds sources k (dependency k)) ∧ key ∈ keys

/-- A resource needs itself and all that the builds of those it needs use. -/
abbrev Needs (session : Session) (sources : View) : String → String → Prop :=
  Relation.ReflTransGen (session.Uses sources)

variable {session : Session} {sources view view' : View} {path key : String}
  {made made' : Resource}

/-! ## Builds -/

namespace Builds

theorem registered (h : session.Builds sources path made) : (sources path).isSome := by
  cases h with
  | intro hGet _ _ => simp [hGet]

/-- A resource is built in one way. -/
theorem unique (h : session.Builds sources path made) (h' : session.Builds sources path made') :
    made = made' := by
  induction h generalizing made' with
  | intro hGet hMakes hKeys ih =>
    cases h' with
    | intro hGet' hMakes' hKeys' =>
      rw [hGet] at hGet'
      cases hGet'
      exact (hMakes.unique hMakes' fun key hKey hKey' => ih key hKey (hKeys' key hKey')).2

/-- What is used is what the build needs, whatever build of the resource is looked at. -/
theorem mem_of_uses {r : Resource} {keys : List String} {dependency : String → Resource}
    (hGet : sources path = some r)
    (hMakes : session.Makes (session.rules.find? path) dependency r keys made)
    (hKeys : ∀ key ∈ keys, session.Builds sources key (dependency key))
    (hUses : session.Uses sources path key) : key ∈ keys := by
  obtain ⟨r', made', keys', dependency', hGet', hMakes', hKeys', hMem⟩ := hUses
  rw [hGet] at hGet'
  cases hGet'
  have hSame := hMakes.unique hMakes' fun k hk hk' => (hKeys k hk).unique (hKeys' k hk')
  rw [hSame.1]
  exact hMem

theorem acc (h : session.Builds sources path made) :
    Acc (fun key path => session.Uses sources path key) path := by
  induction h with
  | intro hGet hMakes hKeys ih =>
    constructor
    intro key hUses
    exact ih key (mem_of_uses hGet hMakes hKeys hUses)

/-- Nothing that is built needs itself for what it uses. -/
theorem not_circular (h : session.Builds sources path made)
    (hUses : session.Uses sources path key) : ¬ session.Needs sources key path := by
  have hIrrefl : ∀ {q}, Acc (Relation.TransGen fun key path => session.Uses sources path key) q →
      ¬ Relation.TransGen (fun key path => session.Uses sources path key) q q := by
    intro q hAcc
    induction hAcc with
    | intro q _ ih =>
      intro hLoop
      exact ih q hLoop hLoop
  intro hNeeds
  refine hIrrefl h.acc.transGen ?_
  have hLoop : Relation.TransGen (session.Uses sources) path path := .head' hUses hNeeds
  exact Relation.transGen_swap.mp hLoop

end Builds

/-! ## Views on the way -/

/-- On the way from the sources: what is pending is as it was, and what is compiled is what it is
built to. -/
structure Settled (session : Session) (sources view : View) : Prop where
  registered : ∀ path, (view path).isSome = (sources path).isSome
  pending : ∀ path r, view path = some r → r.state = .pending → sources path = some r
  compiled : ∀ path r, view path = some r → r.state = .compiled → session.Builds sources path r

namespace Settled

theorem of_pending {registry : Registry} (hPending : ∀ r ∈ registry.entries, r.state = .pending) :
    session.Settled registry.get? registry.get? where
  registered _ := rfl
  pending _ _ hGet _ := hGet
  compiled path r hGet hCompiled := by
    rw [hPending r (Registry.get?_eq_some_iff.mp hGet).1] at hCompiled
    cases hCompiled

theorem update {r : Resource} (h : session.Settled sources view) (hGet : (view path).isSome)
    (hPending : r.state ≠ .pending)
    (hCompiled : r.state = .compiled → session.Builds sources path r) :
    session.Settled sources (Function.update view path (some r)) where
  registered q := by
    rw [← h.registered]
    by_cases hq : q = path
    · subst hq
      simp [hGet]
    · rw [Function.update_of_ne hq]
  pending q r' hQ hState := by
    by_cases hq : q = path
    · subst hq
      rw [Function.update_self] at hQ
      cases hQ
      exact absurd hState hPending
    · rw [Function.update_of_ne hq] at hQ
      exact h.pending q r' hQ hState
  compiled q r' hQ hState := by
    by_cases hq : q = path
    · subst hq
      rw [Function.update_self] at hQ
      cases hQ
      exact hCompiled hState
    · rw [Function.update_of_ne hq] at hQ
      exact h.compiled q r' hQ hState

/-- A compiled resource is what it is built to. -/
theorem builds (h : session.Settled sources view) (hCompiled : View.Compiled view path) :
    session.Builds sources path (View.resource view path) := by
  obtain ⟨r, hGet, hState⟩ := hCompiled
  rw [View.resource_eq hGet]
  exact h.compiled path r hGet hState

/-- Whatever is completed is what it is built to. -/
theorem completes {keys : List String} (h : session.Settled sources view)
    (hCompletes : session.Completes keys view view') : session.Settled sources view' := by
  induction hCompletes with
  | done view => exact h
  | skip _ _ ih => exact ih h
  | next hGet hPending hKeys hStill hMakes _ ihKeys ihRest =>
    have hInner := ihKeys h
    refine ihRest (hInner.update (by simp [hStill]) (by simp [hMakes.state_eq]) ?_)
    intro _
    exact .intro (hInner.pending _ _ hStill hPending) hMakes
      fun k hk => hInner.builds (hKeys.compiled k hk)

end Settled

/-! ## What can be built is compiled -/

/-- A resource can be compiled next: nothing that it needs is being compiled. -/
structure Ready (session : Session) (sources : View) (path : String) (build : Build) : Prop where
  settled : session.Settled sources build.resources.get?
  free : ∀ q, build.resources.state? q = some .compiling → ¬ session.Needs sources path q

namespace Ready

variable {build last : Build}

theorem of_pending (hPending : ∀ r ∈ build.resources.entries, r.state = .pending)
    (path : String) : session.Ready build.resources.get? path build where
  settled := .of_pending hPending
  free := by
    intro q hCompiling
    obtain ⟨r, hGet, hState⟩ := Registry.state?_eq_some_iff.mp hCompiling
    rw [hPending r (Registry.get?_eq_some_iff.mp hGet).1] at hState
    cases hState

theorem of_balanced (h : session.Ready sources path build)
    (hSettled : session.Settled sources last.resources.get?)
    (hBalanced : Build.Balanced build last) : session.Ready sources path last :=
  ⟨hSettled, fun q hq => h.free q ((hBalanced.compiling_iff q).mp hq)⟩

theorem of_resources (h : session.Ready sources path build)
    (hSame : last.resources = build.resources) : session.Ready sources path last :=
  ⟨hSame ▸ h.settled, hSame ▸ h.free⟩

/-- While a resource is being compiled, what it uses can be compiled. -/
theorem enter {r : Resource} (h : session.Ready sources path build)
    (hGet : build.resources.get? path = some r) (hUses : session.Uses sources path key)
    (hBuilds : session.Builds sources path made) :
    session.Ready sources key (build.enter path r.kind) where
  settled := by
    rw [get?_enter hGet]
    exact h.settled.update (by simp [hGet]) (by simp) (by simp)
  free := by
    intro q hCompiling hNeeds
    rw [Build.state?_enter] at hCompiling
    by_cases hq : q = path
    · subst hq
      exact hBuilds.not_circular hUses hNeeds
    · rw [if_neg hq] at hCompiling
      exact h.free q hCompiling (.head hUses hNeeds)

end Ready

/-- The destination of a rule that gives a URI is a string, if there is one. -/
theorem destination_of_uriBy {rule : Option Rule} {uri : String}
    (h : uriBy rule path = .ok uri) :
    ∃ target, (rule.map Rule.destination).getD (.ok none) = .ok target := by
  cases rule with
  | none => exact ⟨none, rfl⟩
  | some rule =>
    simp only [uriBy, Rule.mapPath] at h
    cases hDestination : rule.destination with
    | ok target => exact ⟨target, hDestination⟩
    | error e =>
      rw [hDestination] at h
      cases h

theorem Builds.uri (h : session.Builds sources path made) :
    ∃ uri, uriBy (session.rules.find? path) made.path = .ok uri := by
  cases h with
  | intro _ hMakes _ => cases hMakes with
    | plain _ hUri => exact ⟨_, hUri⟩
    | template _ _ hUri => exact ⟨_, hUri⟩

theorem balanced_of_emit {event : Event} {build last : Build}
    (h : session.emit event path build = (.ok (), last)) : Build.Balanced build last := by
  have := emit_frame Build.balanced_isFrame session event path build
  rwa [h] at this

section

variable (hBuiltIn : session.compilers.BuiltIn)

theorem requireBy_ok (referrer : String) {build : Build}
    (hBuilds : session.Builds sources key made) (hReady : session.Ready sources key build)
    (hCompile : ∀ build, session.Ready sources key build →
      ∃ last, session.compile key (session.rules.find? key) build = (.ok (), last)) :
    ∃ last, session.requireBy session.compile referrer key build = (.ok (), last) := by
  have hRegistered : (build.resources.get? key).isSome := by
    rw [hReady.settled.registered]
    exact hBuilds.registered
  obtain ⟨dependency, hGet⟩ := Option.isSome_iff_exists.mp hRegistered
  obtain ⟨uri, hUri⟩ := hBuilds.uri
  obtain ⟨target, hTarget⟩ := destination_of_uriBy hUri
  simp only [requireBy, hGet, hTarget]
  split
  · exact ⟨build, rfl⟩
  · exact hCompile (build.write _) ⟨hReady.settled, hReady.free⟩

include hBuiltIn

/-- The edits of a pass are collected if what it needs can be built and compiled. -/
theorem collectEdits_ok {replacement : Planned → Resource → Text} {planned : List Planned}
    (hBuilds : ∀ key ∈ planned.map Planned.key, ∃ made, session.Builds sources key made)
    (hCompile : ∀ key ∈ planned.map Planned.key, ∀ build, session.Ready sources key build →
      ∃ last, session.compile key (session.rules.find? key) build = (.ok (), last))
    {build : Build} (hReady : ∀ key ∈ planned.map Planned.key, session.Ready sources key build) :
    ∃ edits last, session.run session.compile (collectEdits path replacement planned).run build =
      (.ok edits, last) := by
  induction planned generalizing build with
  | nil => exact ⟨[], build, rfl⟩
  | cons p planned ih =>
    rw [List.map_cons, List.forall_mem_cons] at hBuilds hCompile hReady
    obtain ⟨made, hMade⟩ := hBuilds.1
    obtain ⟨middle, hMiddle⟩ := requireBy_ok path hMade hReady.1 hCompile.1
    have hCompletes := requireBy_completes (fun _ _ _ => compileRoot_completes hBuiltIn) hMiddle
    have hBalanced := requireBy_frame Build.balanced_isFrame
      (compile_frame Build.balanced_isFrame session) session path p.key build
    rw [hMiddle] at hBalanced
    obtain ⟨r, hGet, -⟩ := hCompletes.compiled p.key List.mem_cons_self
    obtain ⟨others, last, hOthers⟩ := ih hBuilds.2 hCompile.2 fun key hKey =>
      (hReady.2 key hKey).of_balanced (hReady.1.settled.completes hCompletes) hBalanced
    exact ⟨_, last, run_collectEdits_cons_eq_ok_iff.mpr
      ⟨middle, r, others, hMiddle, hGet, hOthers, rfl⟩⟩

theorem identityPass_ok {options : CompileOptions} {build : Build} {r : Resource}
    (hGet : build.resources.get? path = some r) (hState : r.state = .compiling)
    (hBuilds : ∀ key ∈ (identityPlan options path r.text).map Planned.key,
      ∃ made, session.Builds sources key made)
    (hCompile : ∀ key ∈ (identityPlan options path r.text).map Planned.key, ∀ build,
      session.Ready sources key build →
      ∃ last, session.compile key (session.rules.find? key) build = (.ok (), last))
    (hReady : ∀ key ∈ (identityPlan options path r.text).map Planned.key,
      session.Ready sources key build) :
    ∃ last, session.run session.compile (identityPass options path).run build =
      (.ok (), last) := by
  obtain ⟨edits, middle, hEdits⟩ := collectEdits_ok hBuiltIn hBuilds hCompile hReady
  have hCompletes := (collectEdits_completes (fun _ _ _ => compileRoot_completes hBuiltIn)
    hEdits).1
  obtain ⟨last, hLast, -⟩ := run_storeIdentity session session.compile (middle.write _)
    (hCompletes.advances.keeps hGet (by simp [hState])) _
  exact ⟨last, (run_identityPass_eq_ok_iff hGet).mpr ⟨edits, middle, hEdits, hLast⟩⟩

theorem relativePass_ok {build : Build} {r : Resource}
    (hGet : build.resources.get? path = some r) (hState : r.state = .compiling)
    (hBuilds : ∀ key ∈ (relativePlan path r.text).map Planned.key,
      ∃ made, session.Builds sources key made)
    (hCompile : ∀ key ∈ (relativePlan path r.text).map Planned.key, ∀ build,
      session.Ready sources key build →
      ∃ last, session.compile key (session.rules.find? key) build = (.ok (), last))
    (hReady : ∀ key ∈ (relativePlan path r.text).map Planned.key,
      session.Ready sources key build) :
    ∃ last, session.run session.compile (relativePass path).run build = (.ok (), last) := by
  obtain ⟨edits, middle, hEdits⟩ := collectEdits_ok hBuiltIn hBuilds hCompile hReady
  have hCompletes := (collectEdits_completes (fun _ _ _ => compileRoot_completes hBuiltIn)
    hEdits).1
  obtain ⟨last, hLast, -⟩ := run_storeRelative session session.compile middle
    (hCompletes.advances.keeps hGet (by simp [hState])) _ _
  exact ⟨last, (run_relativePass_eq_ok_iff hGet).mpr ⟨edits, middle, hEdits, hLast⟩⟩

/-- A template that is being compiled succeeds if what it needs can be built and compiled. -/
theorem template_ok (hQuiet : session.Quiet) {rule : Option Rule} {build : Build}
    {r : Resource} {uri : String} {dependency : String → Resource}
    (hGet : build.resources.get? path = some r) (hPath : r.path = path)
    (hState : r.state = .compiling) (hPermanent : r.permanent = false)
    (hUri : uriBy rule path = .ok uri)
    (hSettled : session.Settled sources build.resources.get?)
    (hBuilds : ∀ key ∈ neededKeys session.options dependency r,
      session.Builds sources key (dependency key))
    (hCompile : ∀ key ∈ neededKeys session.options dependency r, ∀ build,
      session.Ready sources key build →
      ∃ last, session.compile key (session.rules.find? key) build = (.ok (), last))
    (hReady : ∀ key ∈ neededKeys session.options dependency r,
      session.Ready sources key build) :
    ∃ last, session.run session.compile (templateCompiler session.options path rule).run build =
      (.ok (), last) := by
  subst hPath
  simp only [neededKeys, List.map_append, List.mem_append] at hBuilds hCompile hReady
  have hRegistered := Option.isSome_iff_exists.mpr ⟨r, hGet⟩
  obtain ⟨told, hTold⟩ := hQuiet.emit_ok .preCompile hRegistered
  have hSame := emit_eq_ok_resources hTold
  obtain ⟨passed, hPassed⟩ := identityPass_ok hBuiltIn (hSame ▸ hGet) hState
    (fun key hKey => ⟨_, hBuilds key (.inl hKey)⟩) (fun key hKey => hCompile key (.inl hKey))
    (fun key hKey => (hReady key (.inl hKey)).of_resources hSame)
  have hPassedBalanced : Build.Balanced build passed := by
    have hRun := run_frame Build.balanced_isFrame (compile_frame Build.balanced_isFrame session)
      session (identityPass session.options r.path).run told
    rw [hPassed] at hRun
    exact Build.balanced_isFrame.trans (balanced_of_emit hTold) hRun
  obtain ⟨compiled, hCompiled⟩ :=
    hQuiet.emit_ok .compiled (hPassedBalanced.isSome_get? hRegistered)
  have hCompiledBalanced :=
    Build.balanced_isFrame.trans hPassedBalanced (balanced_of_emit hCompiled)
  obtain ⟨resolved, hResolved⟩ :=
    hQuiet.resolveUri_ok (hCompiledBalanced.isSome_get? hRegistered) hUri
  have hBalanced : Build.Balanced build resolved := by
    have hLast := resolveUri_frame Build.balanced_isFrame session r.path rule compiled
    rw [hResolved] at hLast
    exact Build.balanced_isFrame.trans hCompiledBalanced hLast
  obtain ⟨view, uri', -, hFirst, hView⟩ := firstPass_completes
    (fun _ _ _ => compileRoot_completes hBuiltIn) hGet hState hTold hPassed hCompiled hResolved
  have hStill := hFirst.advances.keeps hGet (by simp [hState])
  have hSettledView := hSettled.completes hFirst
  have hSettledResolved : session.Settled sources resolved.resources.get? := by
    rw [hView]
    exact hSettledView.update (by simp [hStill]) (by simp [hState]) (by simp [hState])
  -- What the second pass needs is what the build of the template needs.
  have hDependency : ∀ key ∈ (identityPlan session.options r.path r.text).map Planned.key,
      View.resource view key = dependency key :=
    fun key hKey => (hSettledView.builds (hFirst.compiled key hKey)).unique
      (hBuilds key (.inl hKey))
  obtain ⟨busy, hBusyGet, hBusyState, hBusyText⟩ :
      ∃ busy, resolved.resources.get? r.path = some busy ∧ busy.state = .compiling ∧
        busy.text = identityText session.options r.path dependency r.text := by
    refine ⟨_, (congrFun hView r.path).trans (Function.update_self ..), hState, ?_⟩
    simp only [Resource.text, decode_identityContent]
    exact identityText_congr hDependency
  rw [← hBusyText] at hBuilds hCompile hReady
  obtain ⟨last, hLast⟩ := relativePass_ok hBuiltIn hBusyGet hBusyState
    (fun key hKey => ⟨_, hBuilds key (.inr hKey)⟩) (fun key hKey => hCompile key (.inr hKey))
    (fun key hKey => (hReady key (.inr hKey)).of_balanced hSettledResolved hBalanced)
  exact ⟨last, (run_templateCompiler_eq_ok_iff hGet hPermanent).mpr
    ⟨told, passed, compiled, resolved, hTold, hPassed, hCompiled, hResolved, hLast⟩⟩

omit hBuiltIn in
theorem asset_ok (hQuiet : session.Quiet) {compile : String → Option Rule → Build → Outcome × Build}
    {rule : Option Rule} {build : Build} {uri : String}
    (hGet : (build.resources.get? path).isSome) (hUri : uriBy rule path = .ok uri) :
    ∃ last, session.run compile (assetCompiler session.options path rule).run build =
      (.ok (), last) := by
  obtain ⟨told, hTold⟩ := hQuiet.emit_ok .preCompile hGet
  rw [← emit_eq_ok_resources hTold] at hGet
  obtain ⟨compiled, hCompiled⟩ := hQuiet.emit_ok .compiled hGet
  rw [← emit_eq_ok_resources hCompiled] at hGet
  obtain ⟨last, hLast⟩ := hQuiet.resolveUri_ok hGet hUri
  exact ⟨last, run_assetCompiler_eq_ok_iff.mpr ⟨told, compiled, hTold, hCompiled, hLast⟩⟩

/-- What can be built is compiled, wherever nothing that it needs is being compiled. -/
theorem Builds.compile_ok (hQuiet : session.Quiet) (h : session.Builds sources path made) :
    ∀ build, session.Ready sources path build →
      ∃ last, session.compile path (session.rules.find? path) build = (.ok (), last) := by
  induction h with
  | @intro path r made keys dependency hSource hMakes hKeys ih =>
    intro build hReady
    have hBuilds : session.Builds sources path made := .intro hSource hMakes hKeys
    obtain ⟨r', hGet⟩ : ∃ r', build.resources.get? path = some r' :=
      Option.isSome_iff_exists.mp (hReady.settled.registered path ▸ hBuilds.registered)
    rw [compile_eq]
    simp only [hGet]
    cases hState : r'.state with
    | compiled => exact ⟨build, rfl⟩
    | compiling =>
      exact absurd .refl
        (hReady.free path (Registry.state?_eq_some_iff.mpr ⟨r', hGet, hState⟩))
    | pending =>
      have hSame := hReady.settled.pending path r' hGet hState
      rw [hSource] at hSame
      cases hSame
      have hPath : r.path = path := Registry.path_of_get? hGet
      have hBusy := get?_enter_self hGet r.kind
      have hRegistered := Option.isSome_iff_exists.mpr ⟨_, hBusy⟩
      have hReadyKeys : ∀ key ∈ keys, session.Ready sources key (build.enter path r.kind) :=
        fun key hKey => hReady.enter hGet
          ⟨r, made, keys, dependency, hSource, hMakes, hKeys, hKey⟩ hBuilds
      have hSettled : session.Settled sources (build.enter path r.kind).resources.get? := by
        rw [get?_enter hGet]
        exact hReady.settled.update (by simp [hGet]) (by simp) (by simp)
      obtain ⟨inner, hInner⟩ : ∃ inner, session.run session.compile
          (session.compilers.forKind r.kind session.options path (session.rules.find? path)).run
          (build.enter path r.kind) = (.ok (), inner) := by
        cases hMakes with
        | plain hPlain hUri =>
          rw [hPath] at hUri
          obtain ⟨inner, hInner⟩ := asset_ok hQuiet hRegistered hUri
          exact ⟨inner, (run_forKind_of_plain hBuiltIn hBusy hPlain).trans hInner⟩
        | template hPermanent hTemplate hUri =>
          rw [hPath] at hUri
          rw [hTemplate]
          exact template_ok hBuiltIn hQuiet hBusy hPath rfl hPermanent hUri hSettled hKeys ih
            hReadyKeys
      simp only [hInner]
      exact ⟨_, rfl⟩

end

/-- From resources that are all pending, with observers that never fail: a root compiles exactly
if it can be built, and then it ends as what it is built to. -/
theorem compileRoot_ok_iff_builds (session : Session) (hBuiltIn : session.compilers.BuiltIn)
    (hQuiet : session.Quiet) (root : String) (build : Build)
    (hPending : ∀ r ∈ build.resources.entries, r.state = .pending) :
    ((∃ last, session.compileRoot root build = (.ok (), last)) ↔
      ∃ made, session.Builds build.resources.get? root made) ∧
    ∀ made, session.Builds build.resources.get? root made →
      (session.compileRoot root build).2.resources.get? root = some made := by
  have hResult : ∀ last, session.compileRoot root build = (.ok (), last) →
      ∃ r, last.resources.get? root = some r ∧
        session.Builds build.resources.get? root r := by
    intro last hOk
    have hCompletes := compileRoot_completes hBuiltIn hOk
    obtain ⟨r, hGet, hState⟩ := hCompletes.compiled root List.mem_cons_self
    exact ⟨r, hGet, ((Settled.of_pending hPending).completes hCompletes).compiled root r hGet
      hState⟩
  have hOk : ∀ made, session.Builds build.resources.get? root made →
      ∃ last, session.compileRoot root build = (.ok (), last) :=
    fun made hBuilds => hBuilds.compile_ok hBuiltIn hQuiet build (.of_pending hPending root)
  refine ⟨⟨?_, ?_⟩, ?_⟩
  · rintro ⟨last, hLast⟩
    obtain ⟨r, -, hBuilds⟩ := hResult last hLast
    exact ⟨r, hBuilds⟩
  · rintro ⟨made, hBuilds⟩
    exact hOk made hBuilds
  · intro made hBuilds
    obtain ⟨last, hLast⟩ := hOk made hBuilds
    obtain ⟨r, hGet, hBuilds'⟩ := hResult last hLast
    rw [hLast, hGet, hBuilds.unique hBuilds']

/-- Two templates that include each other cannot be built, and an image can. -/
theorem compileRoot_ok_iff_builds_circle :
    let build : Build := { resources :=
      { entries := [{ path := "a.tpl", kind := .template,
                      content := "\x7b\x7binclude file=\"b.tpl\"\x7d\x7d".toUTF8 },
          { path := "b.tpl", kind := .template,
            content := "\x7b\x7binclude file=\"a.tpl\"\x7d\x7d".toUTF8 },
          { path := "c.png", kind := .image, content := .empty }]
        paths_nodup := by decide } }
    (¬ ∃ made, Session.Builds {} build.resources.get? "a.tpl" made) ∧
      ∃ made, Session.Builds {} build.resources.get? "c.png" made := by
  intro build
  have hBuiltIn : ({} : Session).compilers.BuiltIn := Compilers.builtIn_default
  have hPending : ∀ r ∈ build.resources.entries, r.state = .pending := by decide
  have hRuns : (Session.compileRoot {} "a.tpl" build).1.isOk = false ∧
      (Session.compileRoot {} "c.png" build).1.isOk = true := by decide +kernel
  rw [← (compileRoot_ok_iff_builds {} hBuiltIn quiet_default "a.tpl" build hPending).1,
    ← (compileRoot_ok_iff_builds {} hBuiltIn quiet_default "c.png" build hPending).1,
    exists_ok_iff_isOk, exists_ok_iff_isOk]
  exact ⟨by simp [hRuns.1], hRuns.2⟩

end Session

end AssetLoom
