import AssetLoom.Proofs.Resumption

/-!
# Compiling again after a failure

A compile that has failed for want of a resource is repeated once the resource is registered. What
the failed compile left behind makes no difference then, as long as each template that it has
rewritten is done with its first pass (`Session.FirstPassDone`): the same comes about as if the
resource had been there from the start (`compileRoot_recovers`).

Without this condition it is not so. The text of the first pass stays stored, and the addresses in
it are taken for addresses of the source when they are searched again
(`compileRoot_not_recovers`).
-/

namespace AssetLoom

namespace Registry

theorem mem_entries_insert {registry : Registry} {r other : Resource} :
    other ∈ (registry.insert r).entries ↔
      other = r ∨ other ∈ registry.entries ∧ other.path ≠ r.path := by
  unfold insert
  split
  · next h =>
    obtain ⟨old, hOld, hPath⟩ := List.mem_map.mp h
    simp only [List.mem_map]
    constructor
    · rintro ⟨entry, hEntry, rfl⟩
      by_cases hSame : entry.path = r.path
      · simp [hSame]
      · simp [hSame, hEntry]
    · rintro (rfl | ⟨hOther, hNe⟩)
      · exact ⟨old, hOld, if_pos hPath⟩
      · exact ⟨other, hOther, if_neg hNe⟩
  · next h =>
    simp only [List.mem_append, List.mem_singleton]
    constructor
    · rintro (hOther | rfl)
      · exact .inr ⟨hOther, fun hPath => h (hPath ▸ List.mem_map_of_mem hOther)⟩
      · exact .inl rfl
    · rintro (rfl | ⟨hOther, -⟩)
      · exact .inr rfl
      · exact .inl hOther

end Registry

namespace View

variable {sources view : View} {path q : String} {r other : Resource}

/-- Registers a resource. -/
def insert (view : View) (r : Resource) : View := Function.update view r.path (some r)

@[simp]
theorem insert_self (view : View) (r : Resource) : view.insert r r.path = some r :=
  Function.update_self ..

theorem insert_of_ne (hq : q ≠ r.path) (view : View) : view.insert r q = view q :=
  Function.update_of_ne hq ..

theorem insert_of_some (hMissing : view r.path = none) (hGet : view q = some other) :
    view.insert r q = some other := by
  have hq : q ≠ r.path := by
    rintro rfl
    simp [hMissing] at hGet
  rw [insert_of_ne hq, hGet]

theorem insert_of_compiled (hMissing : view r.path = none) (h : Compiled view q) :
    view.insert r q = view q := by
  obtain ⟨other, hGet, -⟩ := h
  rw [insert_of_some hMissing hGet, hGet]

theorem compiled_insert_iff (hMissing : view r.path = none) (hFresh : r.state = .pending) :
    Compiled (view.insert r) q ↔ Compiled view q := by
  by_cases hq : q = r.path
  · subst hq
    simp [Compiled, hFresh, hMissing]
  · rw [Compiled, insert_of_ne hq, Compiled]

theorem Unbuilt.insert (h : Unbuilt view) (hFresh : r.state = .pending) :
    Unbuilt (view.insert r) := by
  intro q other hGet
  by_cases hq : q = r.path
  · subst hq
    rw [insert_self] at hGet
    cases hGet
    exact ⟨rfl, hFresh⟩
  · rw [insert_of_ne hq] at hGet
    exact h q other hGet

/-- What a view started from: what is compiled is as in the sources, and all else as it is. -/
def reopened (sources view : View) : View := fun path =>
  if (view path).any Resource.isCompiled then sources path else view path

theorem reopened_of_compiled (h : Compiled view path) :
    reopened sources view path = sources path := by
  obtain ⟨r, hGet, hState⟩ := h
  simp [reopened, hGet, Resource.isCompiled, hState]

theorem reopened_of_not_compiled (h : ¬ Compiled view path) :
    reopened sources view path = view path := by
  cases hGet : view path with
  | none => simp [reopened, hGet]
  | some r =>
    have hState : r.state ≠ .compiled := fun hState => h ⟨r, hGet, hState⟩
    simp [reopened, hGet, Resource.isCompiled, hState]

end View

/-- Only the path of the new resource is looked up in another way. -/
theorem Registry.get?_insert (registry : Registry) (r : Resource) :
    (registry.insert r).get? = View.insert registry.get? r := by
  funext q
  by_cases hq : q = r.path
  · rw [hq, View.insert_self, get?_eq_some_iff]
    exact ⟨mem_entries_insert.mpr (.inl rfl), rfl⟩
  · rw [View.insert_of_ne hq]
    apply Option.ext
    intro other
    rw [get?_eq_some_iff, get?_eq_some_iff, mem_entries_insert]
    constructor
    · rintro ⟨rfl | ⟨hOther, -⟩, rfl⟩
      · exact absurd rfl hq
      · exact ⟨hOther, rfl⟩
    · rintro ⟨hOther, rfl⟩
      exact ⟨.inr ⟨hOther, hq⟩, rfl⟩

namespace Session

variable {session : Session} {sources sources' failed view last : View} {root q : String}
  {r original : Resource}

/-- The first pass over a text is done: from what is compiled, it needs nothing else and has
nothing to change. -/
structure FirstPassDone (session : Session) (view : View) (path : String) (t : Text) : Prop where
  compiled : ∀ p ∈ identityPlan session.options path t, View.Compiled view p.key
  text_eq : identityText session.options path (View.resource view) t = t

/-- A text for which nothing is planned, and in which there is no comment to strip, is done. -/
theorem FirstPassDone.of_nil {path : String} {t : Text}
    (hPlan : identityPlan session.options path t = [])
    (hText : searchedText session.options t = t) : session.FirstPassDone view path t where
  compiled := by simp [hPlan]
  text_eq := by
    have hSpliced := spliced_identityText session.options path (View.resource view) t
    rw [hPlan] at hSpliced
    exact hSpliced.eq_of_nil.trans hText

/-- A draft that is done with its first pass is as good as what it is a draft of. -/
theorem Draft.interchangeable (h : session.Draft sources view q r)
    (hGet : sources q = some original)
    (hDone : r.content ≠ original.content → session.FirstPassDone view q r.text) :
    session.Interchangeable view q original r := by
  cases h with
  | intact hSelf =>
    cases hGet.symm.trans hSelf
    exact .refl _
  | @rewritten r content uri hTemplate hFirst hContent =>
    cases hGet.symm.trans hTemplate.get
    refine ⟨by rw [← hTemplate.pending], ?_⟩
    by_cases hSame : content = original.content
    · exact .inl hSame
    · have hFirstDone := hDone hSame
      refine .inr ⟨hTemplate.permanent, hTemplate.template, hFirst, ?_, ?_⟩
      · intro key hKey
        obtain ⟨p, hp, rfl⟩ := List.mem_map.mp hKey
        exact hFirstDone.compiled p hp
      · have hAgain : identityContent session.options q (View.resource view) content = content :=
          if_pos hFirstDone.text_eq
        rw [hAgain, ← hContent]

theorem Underway.compiled_iff (h : session.Underway sources [] view)
    (hRun : session.Completes [root] view last) :
    View.Compiled last q ↔ View.Compiled view q ∨ session.Needs sources root q := by
  constructor
  · intro hCompiled
    rcases hRun.needed h.settled hCompiled with hBefore | ⟨key, hKey, hNeeds⟩
    · exact .inl hBefore
    · rw [List.mem_singleton.mp hKey] at hNeeds
      exact .inr hNeeds
  · rintro (hBefore | hNeeds)
    · exact hRun.advances.compiled hBefore
    · exact (h.completes hRun).compiled_of_needs (hRun.compiled root List.mem_cons_self) hNeeds

/-- What is compiled is sound for all sources that have the same resources in their places. -/
theorem Sound.of_sources (h : session.Sound sources view)
    (hSame : ∀ q r, View.Compiled view q → sources q = some r → sources' q = some r) :
    session.Sound sources' view := by
  have hBuilds : ∀ {q made}, session.Builds sources q made → View.Compiled view q →
      session.Builds sources' q made := by
    intro q made hMade
    induction hMade with
    | @intro path r made keys dependency hGet hMakes hKeys ih =>
      intro hCompiled
      refine .intro (hSame path r hCompiled hGet) hMakes fun key hKey => ih key hKey ?_
      exact h.closed path key hCompiled ⟨r, made, keys, dependency, hGet, hMakes, hKeys, hKey⟩
  refine ⟨fun q hCompiled => hBuilds (h.builds q hCompiled) hCompiled, ?_⟩
  intro path key hCompiled hUses
  cases h.builds path hCompiled with
  | @intro _ r _ keys dependency hGet hMakes hKeys =>
    have hAll : ∀ k ∈ keys, View.Compiled view k := fun k hk =>
      h.closed path k hCompiled ⟨r, _, keys, dependency, hGet, hMakes, hKeys, hk⟩
    exact hAll key (Builds.mem_of_uses (hSame path r hCompiled hGet) hMakes
      (fun k hk => hBuilds (hKeys k hk) (hAll k hk)) hUses)

/-! ## The resource that was missing -/

section

variable (hUnbuilt : View.Unbuilt sources) (hInterrupted : session.Interrupted sources [] failed)
  (hDone : ∀ path stored original, failed path = some stored → stored.state = .pending →
    sources path = some original → stored.content ≠ original.content →
    session.FirstPassDone failed path stored.text)

include hInterrupted

theorem Interrupted.pending_of_not_compiled (hGet : failed q = some r)
    (hOpen : ¬ View.Compiled failed q) : r.state = .pending := by
  cases hState : r.state with
  | pending => rfl
  | compiled => exact absurd ⟨r, hGet, hState⟩ hOpen
  | compiling => cases (hInterrupted.open_iff q).mp ⟨r, hGet, hState⟩

variable (hMissing : sources r.path = none) (hFresh : r.state = .pending)
include hMissing hFresh

theorem Interrupted.sound_reopened : session.Sound
    (View.reopened (sources.insert r) (failed.insert r)) failed := by
  have hNone := hInterrupted.none_iff.mpr hMissing
  refine hInterrupted.toSound.of_sources fun q other hCompiled hGet => ?_
  rw [View.reopened_of_compiled ((View.compiled_insert_iff hNone hFresh).mpr hCompiled)]
  exact View.insert_of_some hMissing hGet

/-- To compile again is to be on the way from what the failed compile left. -/
theorem Interrupted.underway_reopened : session.Underway
    (View.reopened (sources.insert r) (failed.insert r)) [] (failed.insert r) := by
  have hNone := hInterrupted.none_iff.mpr hMissing
  have hCompiled : ∀ q, View.Compiled (failed.insert r) q ↔ View.Compiled failed q :=
    fun q => View.compiled_insert_iff hNone hFresh
  have hSound := hInterrupted.sound_reopened hMissing hFresh
  refine ⟨⟨?_, ?_⟩, ⟨?_, ?_⟩, ?_⟩
  · intro q hq
    rw [hCompiled] at hq
    rw [View.resource_congr (View.insert_of_compiled hNone hq)]
    exact hSound.builds q hq
  · intro q key hq hUses
    rw [hCompiled] at hq ⊢
    exact hSound.closed q key hq hUses
  · intro q
    by_cases hq : View.Compiled (failed.insert r) q
    · rw [View.reopened_of_compiled hq]
      by_cases hSelf : q = r.path
      · subst hSelf
        simp
      · rw [View.insert_of_ne hSelf, View.insert_of_ne hSelf, hInterrupted.registered]
    · rw [View.reopened_of_not_compiled hq]
  · intro q
    simp only [List.not_mem_nil, iff_false, not_exists, not_and]
    intro other hGet hState
    by_cases hSelf : q = r.path
    · subst hSelf
      rw [View.insert_self] at hGet
      cases hGet
      rw [hFresh] at hState
      cases hState
    · rw [View.insert_of_ne hSelf] at hGet
      cases (hInterrupted.open_iff q).mp ⟨other, hGet, hState⟩
  · intro q other hGet hState
    rw [View.reopened_of_not_compiled, hGet]
    rintro ⟨other', hGet', hState'⟩
    cases hGet.symm.trans hGet'
    rw [hState] at hState'
    cases hState'

include hDone

/-- What is started from again is what was there at first, or a draft that is as good. -/
theorem Interrupted.reopened_eq_or_interchangeable (q : String) :
    View.reopened (sources.insert r) (failed.insert r) q = sources.insert r q ∨
      ∃ original stored, sources.insert r q = some original ∧
        View.reopened (sources.insert r) (failed.insert r) q = some stored ∧
        stored.state = .pending ∧ session.Interchangeable failed q original stored := by
  by_cases hCompiled : View.Compiled (failed.insert r) q
  · exact .inl (View.reopened_of_compiled hCompiled)
  · rw [View.reopened_of_not_compiled hCompiled]
    rw [View.compiled_insert_iff (hInterrupted.none_iff.mpr hMissing) hFresh] at hCompiled
    by_cases hSelf : q = r.path
    · subst hSelf
      exact .inl (by simp)
    · rw [View.insert_of_ne hSelf, View.insert_of_ne hSelf]
      cases hGet : failed q with
      | none => exact .inl (hInterrupted.none_iff.mp hGet).symm
      | some stored =>
        obtain ⟨original, hSource⟩ := Option.isSome_iff_exists.mp (hInterrupted.isSome_of_get hGet)
        have hPending := hInterrupted.pending_of_not_compiled hGet hCompiled
        exact .inr ⟨original, stored, hSource, rfl, hPending,
          (hInterrupted.draft q stored hGet hPending).interchangeable hSource
            (hDone q stored original hGet hPending hSource)⟩

include hUnbuilt

/-- What the failed compile left, with the missing resource, is as good as what was there at
first with it. -/
theorem Interrupted.resembles : session.Resembles failed (sources.insert r)
    (View.reopened (sources.insert r) (failed.insert r)) := by
  have hInserted := hUnbuilt.insert hFresh
  have hAlike := hInterrupted.reopened_eq_or_interchangeable hDone hMissing hFresh
  refine ⟨?_, hInterrupted.sound_reopened hMissing hFresh, hInserted, ?_, ?_⟩
  · exact hInterrupted.toSound.of_sources fun _ _ _ hGet => View.insert_of_some hMissing hGet
  · intro q stored hGet
    rcases hAlike q with hSame | ⟨original, stored', hSource, hStored, hPending, hSame⟩
    · exact hInserted q stored (hSame ▸ hGet)
    · cases hGet.symm.trans hStored
      exact ⟨hSame.path_eq.trans (hInserted q original hSource).1, hPending⟩
  · intro q
    rcases hAlike q with hSame | ⟨original, stored, hSource, hStored, -, hSame⟩
    · rw [hSame]
      cases sources.insert r q with
      | none => exact .none
      | some other => exact .some (.refl other)
    · rw [hSource, hStored]
      exact .some hSame

/-- To complete the root again leads to the same resources as to complete it at first. -/
theorem Interrupted.view_eq {first again : View}
    (hReached : ∀ q, failed q ≠ sources q → session.Reaches sources root q)
    (hFirst : session.Completes [root] (sources.insert r) first)
    (hAgain : session.Completes [root] (failed.insert r) again) : again = first := by
  have hInserted := hUnbuilt.insert hFresh
  have hResembles := hInterrupted.resembles hUnbuilt hDone hMissing hFresh
  have hStart : session.Underway (sources.insert r) [] (sources.insert r) := .of_unbuilt hInserted
  have hRestart := hInterrupted.underway_reopened hMissing hFresh
  -- What the failed compile has changed is needed, and so it is compiled in the end.
  have hChanged : ∀ q, failed q ≠ sources q → View.Compiled first q := by
    intro q hChanged
    have hReaches := (hReached q hChanged).mono fun _ _ => View.insert_of_some hMissing
    have hMade := (hStart.completes hFirst).builds root (hFirst.compiled root List.mem_cons_self)
    exact (hStart.compiled_iff hFirst).mpr (.inr (hReaches.needs hMade))
  have hBefore : ∀ q, View.Compiled failed q → View.Compiled first q := by
    intro q hCompiled
    refine hChanged q fun hSame => hUnbuilt.not_compiled q ?_
    rw [View.Compiled, ← hSame]
    exact hCompiled
  have hIff : ∀ q, View.Compiled again q ↔ View.Compiled first q := by
    intro q
    rw [hRestart.compiled_iff hAgain,
      View.compiled_insert_iff (hInterrupted.none_iff.mpr hMissing) hFresh]
    by_cases hCompiled : View.Compiled failed q
    · exact iff_of_true (.inl hCompiled) (hBefore q hCompiled)
    · rw [hStart.compiled_iff hFirst]
      constructor
      · rintro (hOld | hNeeds)
        · exact absurd hOld hCompiled
        · exact .inr (hResembles.symm.needs hNeeds hCompiled)
      · rintro (hOld | hNeeds)
        · exact absurd hOld (hInserted.not_compiled q)
        · exact .inr (hResembles.needs hNeeds hCompiled)
  funext q
  by_cases hCompiled : View.Compiled first q
  · have hAgainMade := (hRestart.completes hAgain).builds q ((hIff q).mpr hCompiled)
    have hFirstMade := (hStart.completes hFirst).builds q hCompiled
    obtain ⟨made, hMade, -⟩ := (hIff q).mpr hCompiled
    obtain ⟨made', hMade', -⟩ := hCompiled
    rw [View.resource_eq hMade] at hAgainMade
    rw [View.resource_eq hMade'] at hFirstMade
    rw [hMade, hMade', (hResembles.symm.builds hAgainMade).unique hFirstMade]
  · rw [hAgain.eq_of_not_compiled fun hq => hCompiled ((hIff q).mp hq),
      hFirst.eq_of_not_compiled hCompiled]
    by_cases hSelf : q = r.path
    · subst hSelf
      simp
    · rw [View.insert_of_ne hSelf, View.insert_of_ne hSelf]
      by_contra hNe
      exact hCompiled (hChanged q hNe)

end

/-- A root fails for want of a resource, and is compiled again once this is registered. Each
template that the failed compile has rewritten is done with its first pass. Then the result is
that of one compile with the resource registered from the start, and if it is a success, so are
all resources. -/
theorem compileRoot_recovers (session : Session) (hBuiltIn : session.compilers.BuiltIn)
    (hQuiet : session.Quiet) (root : String) {build failed : Build} (hStack : build.stack = [])
    (hPending : ∀ r ∈ build.resources.entries, r.state = .pending) {missing referrer : String}
    (hFailed : session.compileRoot root build = (.error (.unresolved missing referrer), failed))
    (r : Resource) (hPath : r.path = missing) (hFresh : r.state = .pending)
    (hDone : ∀ path stored original, failed.resources.get? path = some stored →
      stored.state = .pending → build.resources.get? path = some original →
      stored.content ≠ original.content →
      session.FirstPassDone failed.resources.get? path stored.text) :
    let first := session.compileRoot root
      { build with resources := build.resources.insert r }
    let again := session.compileRoot root
      { failed with resources := failed.resources.insert r }
    again.1 = first.1 ∧
      (first.1 = .ok () → again.2.resources.get? = first.2.resources.get?) := by
  intro first again
  subst hPath
  have hUnbuilt := Registry.unbuilt_of_pending hPending
  obtain ⟨hInterrupted, hReached⟩ :=
    compileRoot_interrupted session hBuiltIn hQuiet hStack hPending hFailed
  have hMissing : build.resources.get? r.path = none :=
    (compile_halts hBuiltIn hQuiet hFailed).unregistered
  have hStackFirst : ({ build with resources := build.resources.insert r } : Build).stack = [] :=
    hStack
  have hStackAgain :
      ({ failed with resources := failed.resources.insert r } : Build).stack = [] := by
    have hBalanced := compile_frame Build.balanced_isFrame session root
      (session.rules.find? root) build
    rw [compileRoot] at hFailed
    rw [hFailed] at hBalanced
    exact hBalanced.stack_eq.trans hStack
  have hStart : session.Underway (View.insert build.resources.get? r) []
      (build.resources.insert r).get? := by
    rw [Registry.get?_insert]
    exact .of_unbuilt (hUnbuilt.insert hFresh)
  have hRestart : session.Underway (View.reopened (View.insert build.resources.get? r)
      (View.insert failed.resources.get? r)) [] (failed.resources.insert r).get? := by
    rw [Registry.get?_insert]
    exact hInterrupted.underway_reopened hMissing hFresh
  have hResembles := hInterrupted.resembles hUnbuilt hDone hMissing hFresh
  rcases hFirst : first with ⟨outcome, last⟩
  cases outcome with
  | ok =>
    obtain ⟨made, hMade⟩ := (hStart.compileRoot_ok_iff hBuiltIn hQuiet).mp ⟨last, hFirst⟩
    obtain ⟨last', hAgain⟩ : ∃ last', again = (.ok (), last') :=
      (hRestart.compileRoot_ok_iff hBuiltIn hQuiet).mpr ⟨made, hResembles.builds hMade⟩
    rw [hAgain]
    refine ⟨rfl, fun _ => ?_⟩
    have hFirstRun := compileRoot_completes hBuiltIn hFirst
    have hAgainRun := compileRoot_completes hBuiltIn hAgain
    rw [Registry.get?_insert] at hFirstRun hAgainRun
    exact hInterrupted.view_eq hUnbuilt hDone hMissing hFresh hReached hFirstRun hAgainRun
  | error e =>
    have hFails := (hStart.compileRoot_error_iff hBuiltIn hQuiet hStackFirst).mp ⟨last, hFirst⟩
    obtain ⟨last', hAgain⟩ : ∃ last', again = (.error e, last') :=
      (hRestart.compileRoot_error_iff hBuiltIn hQuiet hStackAgain).mpr
        (hResembles.fails hFails (by simp))
    rw [hAgain]
    exact ⟨rfl, nofun⟩

/-- A page with a script in place, and a template that it includes too early. -/
theorem compileRoot_recovers_script :
    let page : Resource :=
      { path := "a.tpl"
        kind := .template
        content := ("<script src=\"b.js?__inline\"></script>" ++
          "\x7b\x7binclude file=\"c.tpl\"\x7d\x7d").toUTF8 }
    let build : Build := { resources :=
      { entries := [page, { path := "b.js", kind := .script, content := "1".toUTF8 }]
        paths_nodup := by decide } }
    let failed := (Session.compileRoot {} page.path build).2
    let late : Resource := { path := "c.tpl", kind := .template, content := "-".toUTF8 }
    (Session.compileRoot {} page.path build).1 = .error (.unresolved late.path page.path) ∧
      (failed.resources.get? page.path).any (·.text ≠ page.text) = true ∧
      (Session.compileRoot {} page.path
        { failed with resources := failed.resources.insert late }).1 = .ok () ∧
      (Session.compileRoot {} page.path
        { failed with resources := failed.resources.insert late }).2.resources.get? =
      (Session.compileRoot {} page.path
        { build with resources := build.resources.insert late }).2.resources.get? := by
  intro page build failed late
  have hRun : (Session.compileRoot {} page.path build).1 =
        .error (.unresolved late.path page.path) ∧
      (failed.resources.get? page.path).any (·.text ≠ page.text) = true ∧
      (∀ stored ∈ failed.resources.entries, stored.state = .pending →
        identityPlan {} stored.path stored.text = []) ∧
      (Session.compileRoot {} page.path
        { build with resources := build.resources.insert late }).1 = .ok () := by decide +kernel
  obtain ⟨hError, hRewritten, hPlans, hFirst⟩ := hRun
  have hPending : ∀ r ∈ build.resources.entries, r.state = .pending := by decide
  have hFailed : Session.compileRoot {} page.path build =
      (.error (.unresolved late.path page.path), failed) := Prod.ext hError rfl
  have hDone : ∀ path stored original, failed.resources.get? path = some stored →
      stored.state = .pending → build.resources.get? path = some original →
      stored.content ≠ original.content →
      Session.FirstPassDone {} failed.resources.get? path stored.text := by
    intro path stored original hGet hState _ _
    obtain ⟨hStored, rfl⟩ := Registry.get?_eq_some_iff.mp hGet
    exact .of_nil (hPlans stored hStored hState) (if_neg (by decide))
  obtain ⟨hResult, hSame⟩ := compileRoot_recovers {} Compilers.builtIn_default quiet_default
    page.path rfl hPending hFailed late rfl rfl hDone
  exact ⟨hError, hRewritten, hResult.trans hFirst, hSame hFirst⟩

/-- An image in the directory of a page. The failed compile has written its address relative to
the root, and the next one looks for it in a directory of the directory. -/
theorem compileRoot_not_recovers :
    let page : Resource :=
      { path := "page/a.tpl"
        kind := .template
        content := ("<img src=\"b.png\"/>\x7b\x7binclude file=\"c.tpl\"\x7d\x7d").toUTF8 }
    let build : Build := { resources :=
      { entries := [page, { path := "page/b.png", kind := .image, content := .empty }]
        paths_nodup := by decide } }
    let failed := (Session.compileRoot {} page.path build).2
    let late : Resource := { path := "page/c.tpl", kind := .template, content := .empty }
    (∀ r ∈ build.resources.entries, r.state = .pending) ∧
      (Session.compileRoot {} page.path build).1 = .error (.unresolved late.path page.path) ∧
      (Session.compileRoot {} page.path
        { failed with resources := failed.resources.insert late }).1 =
          .error (.unresolved "page/page/b.png" page.path) ∧
      (Session.compileRoot {} page.path
        { build with resources := build.resources.insert late }).1 = .ok () := by
  decide +kernel

end Session

end AssetLoom
