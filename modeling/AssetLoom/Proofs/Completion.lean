import AssetLoom.Proofs.Depth
import AssetLoom.Proofs.Passes

/-!
# What a successful compile has done

`Session.Completes` describes how resources are completed, one after the other and each one after
those that it needs. It knows neither the gate nor the stack: a resource is pending until it is
complete. Every compile that succeeds is such a sequence (`compileWithin_completes`).

A completed resource is never changed again. So what it was made from is still there in the end,
and it is what `Session.Makes` says (`Completes.advances`).
-/

namespace AssetLoom

namespace Session

/-- How the resources for some paths are completed, from one view to another. What is compiled is
skipped; what is pending is made from what it needs. -/
inductive Completes (session : Session) : List String → View → View → Prop
  | done (view : View) : Completes session [] view view
  | skip {key : String} {rest : List String} {view last : View}
      (hCompiled : View.Compiled view key) (hRest : Completes session rest view last) :
      Completes session (key :: rest) view last
  | next {key : String} {rest keys : List String} {view inner last : View} {r made : Resource}
      (hGet : view key = some r) (hPending : r.state = .pending)
      (hKeys : Completes session keys view inner) (hStill : inner key = some r)
      (hMakes : session.Makes (session.rules.find? key) (View.resource inner) r keys made)
      (hRest : Completes session rest (Function.update inner key (some made)) last) :
      Completes session (key :: rest) view last

/-- Every resource either stays as it is, or is pending first and compiled then, and is made from
resources that are compiled by then. -/
def Advances (session : Session) (before after : View) : Prop :=
  ∀ path, after path = before path ∨ ∃ r keys made, before path = some r ∧ r.state = .pending ∧
    after path = some made ∧
    session.Makes (session.rules.find? path) (View.resource after) r keys made ∧
    ∀ key ∈ keys, View.Compiled after key

variable {session : Session} {before middle after view last : View} {keys rest : List String}

/-! ## Nothing that is compiled changes -/

theorem Advances.refl (view : View) : session.Advances view view := fun _ => .inl rfl

/-- A resource that is not pending stays as it is. -/
theorem Advances.keeps (h : session.Advances before after) {path : String} {r : Resource}
    (hGet : before path = some r) (hState : r.state ≠ .pending) : after path = some r := by
  rcases h path with hSame | ⟨r', keys, made, hBefore, hPending, -⟩
  · exact hSame.trans hGet
  · rw [hGet] at hBefore
    cases hBefore
    exact absurd hPending hState

theorem Advances.keeps_compiled (h : session.Advances before after) {path : String}
    (hCompiled : View.Compiled before path) : after path = before path := by
  obtain ⟨r, hGet, hState⟩ := hCompiled
  rw [h.keeps hGet (by simp [hState]), hGet]

theorem Advances.compiled (h : session.Advances before after) {path : String}
    (hCompiled : View.Compiled before path) : View.Compiled after path := by
  rw [View.Compiled, h.keeps_compiled hCompiled]
  exact hCompiled

/-- What a resource has been made from stays as it is. -/
theorem Advances.makes (h : session.Advances before after) {rule : Option Rule}
    {r made : Resource} (hMakes : session.Makes rule (View.resource before) r keys made)
    (hCompiled : ∀ key ∈ keys, View.Compiled before key) :
    session.Makes rule (View.resource after) r keys made :=
  hMakes.congr fun key hKey => View.resource_congr (h.keeps_compiled (hCompiled key hKey)).symm

theorem Advances.trans (h : session.Advances before middle) (h' : session.Advances middle after) :
    session.Advances before after := by
  intro path
  rcases h path with hSame | ⟨r, keys, made, hBefore, hPending, hMiddle, hMakes, hCompiled⟩
  · rcases h' path with hSame' | ⟨r, keys, made, hMiddle, hFinish⟩
    · exact .inl (hSame'.trans hSame)
    · exact .inr ⟨r, keys, made, hSame ▸ hMiddle, hFinish⟩
  · refine .inr ⟨r, keys, made, hBefore, hPending, ?_, h'.makes hMakes hCompiled,
      fun key hKey => h'.compiled (hCompiled key hKey)⟩
    exact h'.keeps hMiddle (by simp [hMakes.state_eq])

/-- One resource is completed. -/
theorem Advances.single {path : String} {r made : Resource} (hGet : view path = some r)
    (hPending : r.state = .pending)
    (hMakes : session.Makes (session.rules.find? path) (View.resource view) r keys made)
    (hCompiled : ∀ key ∈ keys, View.Compiled view key) :
    session.Advances view (Function.update view path (some made)) := by
  have hOther : ∀ key ∈ keys, Function.update view path (some made) key = view key :=
    fun key hKey => (hCompiled key hKey).update_eq hGet (by simp [hPending]) _
  intro q
  by_cases hq : q = path
  · subst hq
    refine .inr ⟨r, keys, made, hGet, hPending, by simp, ?_, ?_⟩
    · exact hMakes.congr fun key hKey => View.resource_congr (hOther key hKey).symm
    · intro key hKey
      rw [View.Compiled, hOther key hKey]
      exact hCompiled key hKey
  · exact .inl (Function.update_of_ne hq ..)

namespace Completes

theorem advances_and_compiled (h : session.Completes keys before after) :
    session.Advances before after ∧ ∀ key ∈ keys, View.Compiled after key := by
  induction h with
  | done view => exact ⟨.refl view, by simp⟩
  | skip hCompiled hRest ih =>
    obtain ⟨hAdvances, hKeys⟩ := ih
    exact ⟨hAdvances, List.forall_mem_cons.mpr ⟨hAdvances.compiled hCompiled, hKeys⟩⟩
  | @next key rest keys view inner last r made hGet hPending hKeys hStill hMakes hRest ihKeys
      ihRest =>
    obtain ⟨hInner, hNeeded⟩ := ihKeys
    obtain ⟨hLast, hOthers⟩ := ihRest
    refine ⟨(hInner.trans (.single hStill hPending hMakes hNeeded)).trans hLast,
      List.forall_mem_cons.mpr ⟨?_, hOthers⟩⟩
    exact hLast.compiled ⟨made, by simp, hMakes.state_eq⟩

/-- What is completed has been made from what is compiled in the end. -/
theorem advances (h : session.Completes keys before after) : session.Advances before after :=
  h.advances_and_compiled.1

theorem compiled (h : session.Completes keys before after) :
    ∀ key ∈ keys, View.Compiled after key :=
  h.advances_and_compiled.2

/-- What is not compiled in the end stays as it is. -/
theorem eq_of_not_compiled (h : session.Completes keys before after) {path : String}
    (hOpen : ¬ View.Compiled after path) : after path = before path := by
  rcases h.advances path with hSame | ⟨_, _, made, _, _, hGet, hMakes, _⟩
  · exact hSame
  · exact absurd ⟨made, hGet, hMakes.state_eq⟩ hOpen

theorem append (h : session.Completes keys before middle)
    (h' : session.Completes rest middle after) : session.Completes (keys ++ rest) before after := by
  induction h with
  | done view => exact h'
  | skip hCompiled _ ih => exact .skip hCompiled (ih h')
  | next hGet hPending hKeys hStill hMakes _ _ ih =>
    exact .next hGet hPending hKeys hStill hMakes (ih h')

/-- A resource that is being compiled has no part in what is completed meanwhile; any other one
could stand in its place. -/
theorem update_compiling (h : session.Completes keys before after) {path : String}
    {busy : Resource} (hGet : before path = some busy) (hState : busy.state = .compiling)
    (other : Option Resource) : session.Completes keys (Function.update before path other)
      (Function.update after path other) := by
  induction h with
  | done view => exact .done _
  | @skip key rest view last hCompiled hRest ih =>
    refine .skip ?_ (ih hGet)
    rw [View.Compiled, hCompiled.update_eq hGet (by simp [hState])]
    exact hCompiled
  | @next key rest keys view inner last r made hPut hPending hKeys hStill hMakes hRest ihKeys
      ihRest =>
    have hKey : key ≠ path := by
      rintro rfl
      rw [hGet] at hPut
      cases hPut
      simp [hState] at hPending
    have hInner : inner path = some busy := hKeys.advances.keeps hGet (by simp [hState])
    have hAfter := ihRest (by rwa [Function.update_of_ne (Ne.symm hKey)])
    rw [Function.update_comm hKey] at hAfter
    refine .next (by rwa [Function.update_of_ne hKey]) hPending (ihKeys hGet)
      (by rwa [Function.update_of_ne hKey]) ?_ hAfter
    refine hMakes.congr fun needed hNeeded => View.resource_congr (Eq.symm ?_)
    exact (hKeys.compiled needed hNeeded).update_eq hInner (by simp [hState]) _

end Completes

/-- A template is made in two passes: what each of them needs is completed before, while the
template itself is being compiled. -/
theorem Makes.of_passes {rule : Option Rule} {path uri : String} {r : Resource}
    {view₁ view₂ : View} {busy : Resource} {content : ByteArray}
    (hPath : r.path = path) (hPermanent : r.permanent = false)
    (hTemplate : session.compilers.forKind r.kind = templateCompiler)
    (hUri : uriBy rule path = .ok uri)
    (hBusy : view₂ path = some busy) (hState : busy.state = .compiling)
    (hContent : content = identityContent session.options path (View.resource view₁) r.content)
    (hFirst : ∀ key ∈ (identityPlan session.options path r.text).map Planned.key,
      View.Compiled view₁ key)
    (hSecond : ∀ key ∈ (relativePlan path (Text.decode content)).map Planned.key,
      View.Compiled view₂ key)
    (hKeep : ∀ key, View.Compiled view₁ key → view₂ key = view₁ key) :
    session.Makes rule (View.resource (Function.update view₂ path (some r))) r
      ((identityPlan session.options path r.text).map Planned.key ++
        (relativePlan path (Text.decode content)).map Planned.key)
      { r with
        content := relativeContent path uri (View.resource view₂) content
        uri := some uri
        state := .compiled } := by
  subst hPath
  have hSame₁ : ∀ key ∈ (identityPlan session.options r.path r.text).map Planned.key,
      View.resource view₁ key =
        View.resource (Function.update view₂ r.path (some r)) key := by
    intro key hKey
    apply View.resource_congr
    have hCompiled := hFirst key hKey
    rw [← hKeep key hCompiled, View.Compiled.update_eq _ hBusy (by simp [hState])]
    rw [View.Compiled, hKeep key hCompiled]
    exact hCompiled
  have hContent' : content = identityContent session.options r.path
      (View.resource (Function.update view₂ r.path (some r))) r.content :=
    hContent.trans (identityContent_congr hSame₁)
  have hText : Text.decode content = identityText session.options r.path
      (View.resource (Function.update view₂ r.path (some r))) r.text := by
    rw [hContent', decode_identityContent, Resource.text]
  have hSame₂ : ∀ key ∈ (relativePlan r.path (Text.decode content)).map Planned.key,
      View.resource view₂ key =
        View.resource (Function.update view₂ r.path (some r)) key := by
    intro key hKey
    exact View.resource_congr
      ((hSecond key hKey).update_eq hBusy (by simp [hState]) _).symm
  rw [relativeContent_congr hSame₂, ← List.map_append, hText]
  rw [hContent']
  exact .template hPermanent hTemplate hUri

/-! ## Compiles that succeed -/

theorem get?_enter {build : Build} {path : String} {r : Resource}
    (hGet : build.resources.get? path = some r) (kind : ResourceKind) :
    (build.enter path kind).resources.get? =
      Function.update build.resources.get? path (some { r with state := .compiling }) :=
  Registry.get?_setState_eq_update hGet .compiling

theorem get?_enter_self {build : Build} {path : String} {r : Resource}
    (hGet : build.resources.get? path = some r) (kind : ResourceKind) :
    (build.enter path kind).resources.get? path = some { r with state := .compiling } := by
  rw [get?_enter hGet, Function.update_self]

theorem get?_leave_ok {build : Build} {path : String} {r : Resource}
    (hGet : build.resources.get? path = some r) :
    (build.leave path (.ok ())).resources.get? =
      Function.update build.resources.get? path (some { r with state := .compiled }) :=
  Registry.get?_setState_eq_update hGet .compiled

theorem resolveUri_view {path : String} {rule : Option Rule} {build last : Build} {r : Resource}
    (hGet : build.resources.get? path = some r)
    (h : session.resolveUri path rule build = (.ok (), last)) :
    ∃ uri, uriBy rule path = .ok uri ∧ last.resources.get? =
      Function.update build.resources.get? path (some { r with uri := some uri }) := by
  obtain ⟨uri, hUri, hLast⟩ := resolveUri_eq_ok_resources h
  exact ⟨uri, hUri, hLast ▸ Registry.get?_setUri_eq_update hGet uri⟩

section

variable {compile : String → Option Rule → Build → Outcome × Build}
  (hCompile : ∀ key build last, compile key (session.rules.find? key) build = (.ok (), last) →
    session.Completes [key] build.resources.get? last.resources.get?)
include hCompile

theorem requireBy_completes {referrer target : String} {build last : Build}
    (h : session.requireBy compile referrer target build = (.ok (), last)) :
    session.Completes [target] build.resources.get? last.resources.get? := by
  rcases requireBy_eq_ok h with ⟨r, hGet, hState, rfl⟩ | hLast
  · exact .skip ⟨r, hGet, hState⟩ (.done _)
  · exact hCompile _ (build.write _) _ hLast

/-- The edits of a pass are those with the resources that are compiled in the end. -/
theorem collectEdits_completes {path : String} {replacement : Planned → Resource → Text}
    {planned : List Planned} {build last : Build} {edits : List Edit}
    (h : session.run compile (collectEdits path replacement planned).run build =
      (.ok edits, last)) :
    session.Completes (planned.map Planned.key) build.resources.get? last.resources.get? ∧
      edits = passEdits replacement (View.resource last.resources.get?) planned := by
  induction planned generalizing build edits with
  | nil =>
    rw [collectEdits, run_task_pure] at h
    cases h
    exact ⟨.done _, rfl⟩
  | cons p planned ih =>
    obtain ⟨middle, r, others, hRequire, hGet, hOthers, rfl⟩ :=
      run_collectEdits_cons_eq_ok_iff.mp h
    have hFirst := requireBy_completes hCompile hRequire
    obtain ⟨hRest, rfl⟩ := ih hOthers
    refine ⟨hFirst.append hRest, ?_⟩
    have hKeep := hRest.advances.keeps_compiled (hFirst.compiled p.key List.mem_cons_self)
    rw [passEdits_cons, View.resource_eq (hKeep.trans hGet)]

theorem identityPass_completes {options : CompileOptions} {path : String} {build last : Build}
    {r : Resource} (hGet : build.resources.get? path = some r) (hState : r.state = .compiling)
    (h : session.run compile (identityPass options path).run build = (.ok (), last)) :
    ∃ view, session.Completes ((identityPlan options path r.text).map Planned.key)
        build.resources.get? view ∧
      last.resources.get? = Function.update view path (some { r with
        content := identityContent options path (View.resource view) r.content }) := by
  obtain ⟨edits, middle, hEdits, hStore⟩ := (run_identityPass_eq_ok_iff hGet).mp h
  obtain ⟨hCompletes, rfl⟩ := collectEdits_completes hCompile hEdits
  have hStill : middle.resources.get? path = some r :=
    hCompletes.advances.keeps hGet (by simp [hState])
  obtain ⟨_, hLast, hView⟩ := run_storeIdentity session compile (middle.write _) hStill _
  rw [hLast] at hStore
  cases hStore
  exact ⟨_, hCompletes, hView⟩

/-- What a template has come to when its URI is resolved. -/
theorem firstPass_completes {options : CompileOptions} {path : String} {rule : Option Rule}
    {build told passed compiled resolved : Build} {r : Resource}
    (hGet : build.resources.get? path = some r) (hState : r.state = .compiling)
    (hTold : session.emit .preCompile path build = (.ok (), told))
    (hPassed : session.run compile (identityPass options path).run told = (.ok (), passed))
    (hCompiled : session.emit .compiled path passed = (.ok (), compiled))
    (hResolved : session.resolveUri path rule compiled = (.ok (), resolved)) :
    ∃ view uri, uriBy rule path = .ok uri ∧
      session.Completes ((identityPlan options path r.text).map Planned.key)
        build.resources.get? view ∧
      resolved.resources.get? = Function.update view path (some { r with
        content := identityContent options path (View.resource view) r.content
        uri := some uri }) := by
  have hSame := emit_eq_ok_resources hTold
  obtain ⟨view, hFirst, hView⟩ :=
    identityPass_completes hCompile (hSame ▸ hGet) hState hPassed
  rw [← emit_eq_ok_resources hCompiled] at hView
  obtain ⟨uri, hUri, hLast⟩ := resolveUri_view (by rw [hView, Function.update_self]) hResolved
  refine ⟨view, uri, hUri, hSame ▸ hFirst, ?_⟩
  rw [hLast, hView, Function.update_idem]

theorem relativePass_completes {path uri : String} {build last : Build} {r : Resource}
    (hGet : build.resources.get? path = some r) (hState : r.state = .compiling)
    (hUri : r.uri = some uri)
    (h : session.run compile (relativePass path).run build = (.ok (), last)) :
    ∃ view, session.Completes ((relativePlan path r.text).map Planned.key)
        build.resources.get? view ∧
      last.resources.get? = Function.update view path (some { r with
        content := relativeContent path uri (View.resource view) r.content }) := by
  obtain ⟨edits, middle, hEdits, hStore⟩ := (run_relativePass_eq_ok_iff hGet).mp h
  rw [hUri, Option.getD_some] at hEdits
  obtain ⟨hCompletes, rfl⟩ := collectEdits_completes hCompile hEdits
  have hStill : middle.resources.get? path = some r :=
    hCompletes.advances.keeps hGet (by simp [hState])
  obtain ⟨_, hLast, hView⟩ := run_storeRelative session compile middle hStill _ _
  rw [hLast] at hStore
  cases hStore
  simp only [passEdits_eq_nil_iff] at hView
  exact ⟨_, hCompletes, hView⟩

end

theorem plain_completes {path : String} {build last : Build} {r : Resource}
    {compile : String → Option Rule → Build → Outcome × Build}
    (hGet : build.resources.get? path = some r) (hPending : r.state = .pending)
    (hPlain : r.permanent = true ∨ session.compilers.forKind r.kind = assetCompiler)
    (h : session.run compile (assetCompiler session.options path
      (session.rules.find? path)).run (build.enter path r.kind) = (.ok (), last)) :
    session.Completes [path] build.resources.get?
      (last.leave path (.ok ())).resources.get? := by
  obtain ⟨told, compiled, hTold, hCompiled, hResolved⟩ := run_assetCompiler_eq_ok_iff.mp h
  have hView : compiled.resources.get? =
      Function.update build.resources.get? path (some { r with state := .compiling }) := by
    rw [emit_eq_ok_resources hCompiled, emit_eq_ok_resources hTold, get?_enter hGet]
  obtain ⟨uri, hUri, hLast⟩ := resolveUri_view (by rw [hView, Function.update_self]) hResolved
  rw [get?_leave_ok (by rw [hLast, Function.update_self]), hLast, hView,
    Function.update_idem, Function.update_idem]
  refine .next hGet hPending (.done _) hGet (.plain hPlain ?_) (.done _)
  rw [Registry.path_of_get? hGet]
  exact hUri

theorem template_completes {path : String} {build last : Build} {r : Resource}
    {compile : String → Option Rule → Build → Outcome × Build}
    (hCompile : ∀ key build last, compile key (session.rules.find? key) build = (.ok (), last) →
      session.Completes [key] build.resources.get? last.resources.get?)
    (hGet : build.resources.get? path = some r) (hPending : r.state = .pending)
    (hPermanent : r.permanent = false)
    (hTemplate : session.compilers.forKind r.kind = templateCompiler)
    (h : session.run compile (templateCompiler session.options path
      (session.rules.find? path)).run (build.enter path r.kind) = (.ok (), last)) :
    session.Completes [path] build.resources.get?
      (last.leave path (.ok ())).resources.get? := by
  have hEnter := get?_enter hGet r.kind
  have hBusy := get?_enter_self hGet r.kind
  obtain ⟨told, passed, compiled, resolved, hTold, hPassed, hCompiled, hResolved, hLast⟩ :=
    (run_templateCompiler_eq_ok_iff hBusy hPermanent).mp h
  obtain ⟨view₁, uri, hUri, hFirst, hView⟩ :=
    firstPass_completes hCompile hBusy rfl hTold hPassed hCompiled hResolved
  have hOpen := congrFun hView path
  rw [Function.update_self] at hOpen
  obtain ⟨view₂, hSecond, hView₂⟩ := relativePass_completes hCompile hOpen rfl rfl hLast
  have hStill₁ := hFirst.advances.keeps hBusy (by simp)
  have hStill₂ := hSecond.advances.keeps hOpen (by simp)
  -- With the template as it was before in its place, what each pass needs is completed all the
  -- same.
  have hSelf : Function.update build.resources.get? path (some r) = build.resources.get? := by
    rw [← hGet, Function.update_eq_self]
  have hFirst' := hFirst.update_compiling hBusy rfl (some r)
  rw [hEnter, Function.update_idem, hSelf] at hFirst'
  have hSecond' := hSecond.update_compiling hOpen rfl (some r)
  rw [hView, Function.update_idem] at hSecond'
  have hKeep : ∀ key, View.Compiled view₁ key → view₂ key = view₁ key := by
    intro key hKey
    have hResolvedKey : resolved.resources.get? key = view₁ key := by
      rw [hView]
      exact hKey.update_eq hStill₁ (by simp) _
    rw [← hResolvedKey]
    refine hSecond.advances.keeps_compiled ?_
    rw [View.Compiled, hResolvedKey]
    exact hKey
  have hMakes : session.Makes (session.rules.find? path) _ r _ _ :=
    .of_passes (Registry.path_of_get? hGet) hPermanent hTemplate hUri hStill₂ rfl rfl
      hFirst.compiled hSecond.compiled hKeep
  rw [get?_leave_ok (by rw [hView₂, Function.update_self]), hView₂, Function.update_idem]
  refine .next hGet hPending (hFirst'.append hSecond') (by rw [Function.update_self]) hMakes ?_
  rw [Function.update_idem]
  exact .done _

/-- A compile that succeeds completes a resource and what it needs. -/
theorem compileWithin_completes (hBuiltIn : session.compilers.BuiltIn) {depth : Nat}
    {path : String} {build last : Build}
    (h : session.compileWithin depth path (session.rules.find? path) build = (.ok (), last)) :
    session.Completes [path] build.resources.get? last.resources.get? := by
  induction depth using Nat.strongRecOn generalizing path build last with
  | ind depth ih =>
    rcases compileWithin_eq_ok h with ⟨r, hGet, hState, rfl⟩ |
      ⟨inner, r, closing, rfl, hGet, hPending, hRun, rfl⟩
    · exact .skip ⟨r, hGet, hState⟩ (.done _)
    · have hBusy := get?_enter_self hGet r.kind
      by_cases hPlain : r.permanent = true ∨ session.compilers.forKind r.kind = assetCompiler
      · exact plain_completes hGet hPending hPlain
          ((run_forKind_of_plain hBuiltIn hBusy hPlain).symm.trans hRun)
      · obtain ⟨hPermanent, hKind⟩ := not_or.mp hPlain
        have hTemplate := (hBuiltIn r.kind).resolve_right hKind
        rw [hTemplate] at hRun
        exact template_completes (fun key build last => ih inner (Nat.lt_succ_self inner)) hGet
          hPending (by simpa using hPermanent) hTemplate hRun

/-- The root that is compiled, and what it needs, is completed. -/
theorem compileRoot_completes (hBuiltIn : session.compilers.BuiltIn) {root : String}
    {build last : Build} (h : session.compileRoot root build = (.ok (), last)) :
    session.Completes [root] build.resources.get? last.resources.get? :=
  compileWithin_completes hBuiltIn h

end Session

end AssetLoom
