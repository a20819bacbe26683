import AssetLoom.Proofs.Failure
import AssetLoom.Proofs.Order

/-!
# What a failed compile leaves behind

A compile that fails leaves some resources compiled, and these are what they are built to. All
others are pending again, and each of them is a draft of what it was (`Session.Draft`): the same,
or a template with the text of its first pass (`Session.Interrupted`). The failed compile has
changed nothing but what the root reaches through what templates plan (`Session.Reaches`), also
where what they plan cannot be built.
-/

namespace AssetLoom

namespace Session

variable {session : Session} {sources sources' view last : View} {stack : List String}
  {path key q : String} {r made : Resource} {e : CompileError} {demand : Demand}

/-! ## What is reached -/

/-- A pass over a template plans another resource; for the second pass, all that the first one
plans is built. -/
inductive Plans (session : Session) (sources : View) (path key : String) : Prop
  | first {r : Resource} (hTemplate : session.Rewritable sources path r)
      (hKey : key ∈ (identityPlan session.options path r.text).map Planned.key)
  | second {r : Resource} {dependency : String → Resource}
      (hTemplate : session.Rewritable sources path r)
      (hBuilds : ∀ k ∈ (identityPlan session.options path r.text).map Planned.key,
        session.Builds sources k (dependency k))
      (hKey : key ∈ (relativePlan path
        (identityText session.options path dependency r.text)).map Planned.key)

/-- A resource reaches itself and all that is planned for those that it reaches. -/
abbrev Reaches (session : Session) (sources : View) : String → String → Prop :=
  Relation.ReflTransGen (session.Plans sources)

/-- What is used has been planned. -/
theorem Uses.plans (h : session.Uses sources path key) (hUnbuilt : View.Unbuilt sources) :
    session.Plans sources path key := by
  obtain ⟨r, made, keys, dependency, hGet, hMakes, hBuilds, hKey⟩ := h
  obtain ⟨rfl, hPending⟩ := hUnbuilt path r hGet
  cases hMakes with
  | plain _ _ => cases hKey
  | template hPermanent hTemplate _ =>
    have hRewritable : session.Rewritable sources r.path r :=
      ⟨hGet, rfl, hPending, hPermanent, hTemplate⟩
    rcases mem_neededKeys.mp hKey with hFirst | hSecond
    · exact .first hRewritable hFirst
    · exact .second hRewritable (fun k hk => hBuilds k (mem_neededKeys.mpr (.inl hk))) hSecond

theorem Needs.reaches (h : session.Needs sources path key) (hUnbuilt : View.Unbuilt sources) :
    session.Reaches sources path key :=
  Relation.ReflTransGen.mono (fun _ _ hUses => Uses.plans hUses hUnbuilt) _ _ h

/-- What is planned for a resource that can be built is used. -/
theorem Plans.uses (h : session.Plans sources path key)
    (hMade : session.Builds sources path made) : session.Uses sources path key := by
  cases h with
  | first hTemplate hKey =>
    obtain ⟨dependency, hBuilds⟩ := hTemplate.builds_first hMade
    rw [hTemplate.uses_iff hMade hBuilds, mem_neededKeys, hTemplate.named]
    exact .inl hKey
  | second hTemplate hBuilds hKey =>
    rw [hTemplate.uses_iff hMade hBuilds, mem_neededKeys, hTemplate.named]
    exact .inr hKey

theorem Uses.builds (h : session.Uses sources path key) :
    ∃ made, session.Builds sources key made := by
  obtain ⟨_, _, _, dependency, _, _, hBuilds, hKey⟩ := h
  exact ⟨dependency key, hBuilds key hKey⟩

/-- A resource that can be built needs all that it reaches. -/
theorem Reaches.needs (h : session.Reaches sources path q)
    (hMade : session.Builds sources path made) : session.Needs sources path q := by
  induction h using Relation.ReflTransGen.head_induction_on generalizing made with
  | refl => exact .refl
  | head hPlans _ ih =>
    have hUses := hPlans.uses hMade
    obtain ⟨made', hMade'⟩ := hUses.builds
    exact .head hUses (ih hMade')

/-! ## More resources -/

section

variable (hMore : ∀ q r, sources q = some r → sources' q = some r)
include hMore

theorem Builds.mono (h : session.Builds sources path made) :
    session.Builds sources' path made := by
  induction h with
  | intro hGet hMakes _ ih => exact .intro (hMore _ _ hGet) hMakes ih

theorem Rewritable.mono (h : session.Rewritable sources path r) :
    session.Rewritable sources' path r :=
  ⟨hMore _ _ h.get, h.named, h.pending, h.permanent, h.template⟩

theorem Reaches.mono (h : session.Reaches sources path key) :
    session.Reaches sources' path key := by
  refine Relation.ReflTransGen.mono ?_ _ _ h
  intro p k hPlans
  cases hPlans with
  | first hTemplate hKey => exact .first (hTemplate.mono hMore) hKey
  | second hTemplate hBuilds hKey =>
    exact .second (hTemplate.mono hMore) (fun k hk => (hBuilds k hk).mono hMore) hKey

end

/-! ## Drafts -/

/-- What a failed compile leaves of a pending resource: the resource, or the template after its
first pass, with the URI that it may have been given. -/
inductive Draft (session : Session) (sources view : View) (path : String) : Resource → Prop
  | intact {r : Resource} (hGet : sources path = some r) : Draft session sources view path r
  | rewritten {r : Resource} {content : ByteArray} {uri : Option String}
      (hTemplate : session.Rewritable sources path r)
      (hFirst : ∀ key ∈ (identityPlan session.options path r.text).map Planned.key,
        View.Compiled view key)
      (hContent : content =
        identityContent session.options path (View.resource view) r.content) :
      Draft session sources view path { r with content, uri, state := .pending }

/-- After a failed compile, while the compiles on the stack are still open: what is compiled is
what it is built to, and what is pending is a draft. -/
structure Interrupted (session : Session) (sources : View) (stack : List String) (view : View) :
    Prop extends session.Sound sources view, View.Tracks sources stack view where
  draft : ∀ path r, view path = some r → r.state = .pending → session.Draft sources view path r

theorem Underway.interrupted (h : session.Underway sources stack view) :
    session.Interrupted sources stack view :=
  ⟨h.toSound, h.toTracks, fun path r hGet hState => .intact (h.pending path r hGet hState)⟩

/-- A draft depends on nothing but what is compiled. -/
theorem Draft.of_kept {view' : View} (h : session.Draft sources view path r)
    (hKept : ∀ key, View.Compiled view key → view' key = view key) :
    session.Draft sources view' path r := by
  cases h with
  | intact hGet => exact .intact hGet
  | rewritten hTemplate hFirst hContent =>
    refine .rewritten hTemplate ?_ (hContent.trans (identityContent_congr ?_))
    · intro key hKey
      rw [View.Compiled, hKept key (hFirst key hKey)]
      exact hFirst key hKey
    · intro key hKey
      exact View.resource_congr (hKept key (hFirst key hKey)).symm

/-- The innermost open compile fails, and its resource is left as a draft. -/
theorem Interrupted.leave {busy : Resource} (h : session.Interrupted sources (stack ++ [path]) view)
    (hFresh : path ∉ stack) (hGet : view path = some busy) (hBusy : busy.state = .compiling)
    (hPending : r.state = .pending) (hDraft : session.Draft sources view path r) :
    session.Interrupted sources stack (Function.update view path (some r)) := by
  have hCompiled : ∀ q, View.Compiled (Function.update view path (some r)) q ↔
      View.Compiled view q :=
    fun q => View.compiled_update_iff hGet (by simp [hBusy]) (by simp [hPending])
  have hKept : ∀ q, View.Compiled view q → Function.update view path (some r) q = view q :=
    fun q hq => hq.update_eq hGet (by simp [hBusy]) _
  refine ⟨⟨?_, ?_⟩, ⟨?_, ?_⟩, ?_⟩
  · intro q hq
    rw [hCompiled] at hq
    rw [View.resource_congr (hKept q hq)]
    exact h.builds q hq
  · intro q key hq hUses
    rw [hCompiled] at hq ⊢
    exact h.closed q key hq hUses
  · intro q
    rw [← h.registered]
    by_cases hq : q = path
    · subst hq
      simp [hGet]
    · rw [Function.update_of_ne hq]
  · intro q
    by_cases hq : q = path
    · subst hq
      simp [hPending, hFresh]
    · rw [Function.update_of_ne hq, h.open_iff]
      simp [hq]
  · intro q r' hq hState
    by_cases hSelf : q = path
    · subst hSelf
      rw [Function.update_self] at hq
      cases hq
      exact hDraft.of_kept hKept
    · rw [Function.update_of_ne hSelf] at hq
      exact (h.draft q r' hq hState).of_kept hKept

theorem Halts.keeps_compiled (h : session.Halts e stack demand view last)
    (hCompiled : View.Compiled view key) : last key = view key := by
  obtain ⟨r, hGet, hState⟩ := hCompiled
  rw [h.keeps hGet (by simp [hState]), hGet]

/-- Whatever fails leaves drafts behind. -/
theorem Halts.interrupted (h : session.Halts e stack demand view last)
    (hUnderway : session.Underway sources stack view) :
    session.Interrupted sources stack last := by
  induction h with
  | unknown => exact hUnderway.interrupted
  | circle => exact hUnderway.interrupted
  | plain => exact hUnderway.interrupted
  | missing => exact hUnderway.interrupted
  | destination => exact hUnderway.interrupted
  | within _ _ _ ih => exact ih hUnderway
  | later hFirst _ ih => exact ih (hUnderway.completes hFirst)
  | first hTemplate hKeys ih =>
    exact (ih (hUnderway.enter hTemplate)).leave
      (hUnderway.fresh hTemplate.get hTemplate.pending)
      (hKeys.keeps (Function.update_self ..) (by simp)) rfl hTemplate.pending
      (.intact (hUnderway.rewritable hTemplate).get)
  | between hTemplate hKeys hContent _ =>
    have hInner := (hUnderway.enter hTemplate).completes hKeys
    exact hInner.interrupted.leave (hUnderway.fresh hTemplate.get hTemplate.pending)
      (hKeys.advances.keeps (Function.update_self ..) (by simp)) rfl rfl
      (.rewritten (hUnderway.rewritable hTemplate) hKeys.compiled hContent)
  | @second stack key uri view view₁ view₂ r content hTemplate hFirst hContent hUri hKeys ih =>
    have hInner := (hUnderway.enter hTemplate).completes hFirst
    have hOpen := hFirst.advances.keeps (Function.update_self ..) (by simp)
    have hDraft : session.Draft sources view₁ key
        { r with content, uri := some uri, state := .pending } :=
      .rewritten (hUnderway.rewritable hTemplate) hFirst.compiled hContent
    refine (ih (hInner.update hOpen (by simp) rfl (by simp))).leave
      (hUnderway.fresh hTemplate.get hTemplate.pending)
      (hKeys.keeps (Function.update_self ..) (by simp)) rfl rfl (hDraft.of_kept ?_)
    intro k hCompiled
    have hSame := hCompiled.update_eq hOpen (by simp)
      (some { r with content, uri := some uri, state := .compiling })
    rw [hKeys.keeps_compiled, hSame]
    rw [View.Compiled, hSame]
    exact hCompiled

theorem Completes.reached {keys : List String} (h : session.Completes keys view last)
    (hSettled : session.Settled sources view) (hUnbuilt : View.Unbuilt sources)
    (hChanged : last q ≠ view q) : ∃ key ∈ keys, session.Reaches sources key q := by
  have hCompiled : View.Compiled last q := by
    by_contra hOpen
    exact hChanged (h.eq_of_not_compiled hOpen)
  rcases h.needed hSettled hCompiled with hBefore | ⟨key, hKey, hNeeds⟩
  · exact absurd (h.advances.keeps_compiled hBefore) hChanged
  · exact ⟨key, hKey, hNeeds.reaches hUnbuilt⟩

/-- What fails has changed nothing but what is reached from what was asked for. -/
theorem Halts.reached (h : session.Halts e stack demand view last)
    (hUnderway : session.Underway sources stack view) (hUnbuilt : View.Unbuilt sources)
    (hChanged : last q ≠ view q) : ∃ key ∈ demand.keys, session.Reaches sources key q := by
  induction h with
  | unknown => exact absurd rfl hChanged
  | circle => exact absurd rfl hChanged
  | plain => exact absurd rfl hChanged
  | missing => exact absurd rfl hChanged
  | destination => exact absurd rfl hChanged
  | within _ _ _ ih =>
    obtain ⟨k, hk, hReaches⟩ := ih hUnderway hChanged
    rw [List.mem_singleton.mp hk] at hReaches
    exact ⟨_, List.mem_cons_self, hReaches⟩
  | @later _ _ _ key view middle _ hFirst _ ih =>
    by_cases hBefore : middle q = view q
    · rw [← hBefore] at hChanged
      obtain ⟨k, hk, hReaches⟩ := ih (hUnderway.completes hFirst) hChanged
      exact ⟨k, List.mem_cons_of_mem _ hk, hReaches⟩
    · obtain ⟨k, hk, hReaches⟩ := hFirst.reached hUnderway.settled hUnbuilt hBefore
      rw [List.mem_singleton.mp hk] at hReaches
      exact ⟨key, List.mem_cons_self, hReaches⟩
  | @first stack key view inner r hTemplate _ ih =>
    refine ⟨key, List.mem_singleton_self key, ?_⟩
    by_cases hq : q = key
    · exact hq ▸ .refl
    · rw [Function.update_of_ne hq, ← Function.update_of_ne hq _ view] at hChanged
      obtain ⟨k, hk, hReaches⟩ := ih (hUnderway.enter hTemplate) hChanged
      exact .head (.first (hUnderway.rewritable hTemplate) hk) hReaches
  | @between stack key view inner r content hTemplate hKeys _ _ =>
    refine ⟨key, List.mem_singleton_self key, ?_⟩
    by_cases hq : q = key
    · exact hq ▸ .refl
    · rw [Function.update_of_ne hq, ← Function.update_of_ne hq _ view] at hChanged
      obtain ⟨k, hk, hReaches⟩ :=
        hKeys.reached (hUnderway.enter hTemplate).settled hUnbuilt hChanged
      exact .head (.first (hUnderway.rewritable hTemplate) hk) hReaches
  | @second stack key uri view view₁ view₂ r content hTemplate hFirst hContent _ _ ih =>
    refine ⟨key, List.mem_singleton_self key, ?_⟩
    by_cases hq : q = key
    · exact hq ▸ .refl
    · have hEntered := hUnderway.enter hTemplate
      have hInner := hEntered.completes hFirst
      have hOpen := hFirst.advances.keeps (Function.update_self ..) (by simp)
      rw [Function.update_of_ne hq, ← Function.update_of_ne hq _ view] at hChanged
      -- It is changed by the second pass, or by the first one before.
      by_cases hBefore : view₁ q = Function.update view key (some { r with state := .compiling }) q
      · rw [← hBefore, ← Function.update_of_ne hq _ view₁] at hChanged
        obtain ⟨k, hk, hReaches⟩ := ih (hInner.update hOpen (by simp) rfl (by simp)) hChanged
        rw [hContent, decode_identityContent] at hk
        exact .head (.second (hUnderway.rewritable hTemplate)
          (fun k hk => hInner.builds k (hFirst.compiled k hk)) hk) hReaches
      · obtain ⟨k, hk, hReaches⟩ := hFirst.reached hEntered.settled hUnbuilt hBefore
        exact .head (.first (hUnderway.rewritable hTemplate) hk) hReaches

/-- From resources that are all pending, with observers that never fail: a root that fails leaves
resources that are compiled to what they are built to, and drafts. What it has changed it has
reached through what templates plan. -/
theorem compileRoot_interrupted (session : Session) (hBuiltIn : session.compilers.BuiltIn)
    (hQuiet : session.Quiet) {root : String} {build last : Build} {e : CompileError}
    (hStack : build.stack = []) (hPending : ∀ r ∈ build.resources.entries, r.state = .pending)
    (hError : session.compileRoot root build = (.error e, last)) :
    session.Interrupted build.resources.get? [] last.resources.get? ∧
      ∀ q, last.resources.get? q ≠ build.resources.get? q →
        session.Reaches build.resources.get? root q := by
  have hHalts := compile_halts hBuiltIn hQuiet hError
  rw [hStack] at hHalts
  have hUnbuilt := Registry.unbuilt_of_pending hPending
  have hUnderway : session.Underway build.resources.get? [] build.resources.get? :=
    .of_unbuilt hUnbuilt
  refine ⟨hHalts.interrupted hUnderway, fun q hChanged => ?_⟩
  obtain ⟨key, hKey, hReaches⟩ := hHalts.reached hUnderway hUnbuilt hChanged
  rwa [List.mem_singleton.mp hKey] at hReaches

end Session

end AssetLoom
