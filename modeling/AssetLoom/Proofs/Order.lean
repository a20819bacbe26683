import AssetLoom.Proofs.Alike
import AssetLoom.Proofs.Builds

/-!
# The order of compiles

Where some roots have all been compiled, a resource is compiled exactly if one of them needs it
(`Completes.compiled_iff_needs`), and it is what it is built to. Neither depends on the order of
the roots, nor on what has been compiled as a root and what within another compile
(`order_irrelevant`).
-/

namespace AssetLoom

namespace Session

variable {session : Session} {sources view view' : View} {keys keys' : List String}

/-! ## What is compiled -/

/-- Only what is needed is compiled. -/
theorem Completes.needed (h : session.Completes keys view view')
    (hSettled : session.Settled sources view) {q : String} (hCompiled : View.Compiled view' q) :
    View.Compiled view q ∨ ∃ key ∈ keys, session.Needs sources key q := by
  induction h with
  | done view => exact .inl hCompiled
  | skip _ _ ih =>
    rcases ih hSettled hCompiled with hBefore | ⟨key, hKey, hNeeds⟩
    · exact .inl hBefore
    · exact .inr ⟨key, List.mem_cons_of_mem _ hKey, hNeeds⟩
  | @next key rest keys view inner last r made hGet hPending hKeys hStill hMakes hRest ihKeys
      ihRest =>
    have hInner := hSettled.completes hKeys
    have hBuilds := fun k hk => hInner.builds (hKeys.compiled k hk)
    have hSource := hInner.pending _ _ hStill hPending
    have hUpdated := hInner.update (by simp [hStill]) (by simp [hMakes.state_eq])
      fun _ => .intro hSource hMakes hBuilds
    rcases ihRest hUpdated hCompiled with hBefore | ⟨root, hRoot, hNeeds⟩
    · by_cases hq : q = key
      · exact .inr ⟨key, List.mem_cons_self, hq ▸ .refl⟩
      · rw [View.Compiled, Function.update_of_ne hq] at hBefore
        rcases ihKeys hSettled hBefore with hFirst | ⟨used, hUsed, hNeeds⟩
        · exact .inl hFirst
        · exact .inr ⟨key, List.mem_cons_self,
            .head ⟨r, made, keys, _, hSource, hMakes, hBuilds, hUsed⟩ hNeeds⟩
    · exact .inr ⟨root, List.mem_cons_of_mem _ hRoot, hNeeds⟩

section

variable {registry : Registry} (hPending : ∀ r ∈ registry.entries, r.state = .pending)
include hPending

theorem not_compiled_of_pending (q : String) : ¬ View.Compiled registry.get? q := by
  rintro ⟨r, hGet, hState⟩
  rw [hPending r (Registry.get?_eq_some_iff.mp hGet).1] at hState
  cases hState

/-- What a compiled resource uses is compiled. -/
theorem Completes.compiled_of_uses (h : session.Completes keys registry.get? view)
    {path key : String} (hCompiled : View.Compiled view path)
    (hUses : session.Uses registry.get? path key) : View.Compiled view key := by
  have hSettled := (Settled.of_pending hPending).completes h
  rcases h.advances path with hSame | ⟨r, used, made, hGet, -, -, hMakes, hUsed⟩
  · rw [View.Compiled, hSame] at hCompiled
    exact absurd hCompiled (not_compiled_of_pending hPending path)
  · exact hUsed key (Builds.mem_of_uses hGet hMakes
      (fun k hk => hSettled.builds (hUsed k hk)) hUses)

/-- What is compiled is what one of the roots needs. -/
theorem Completes.compiled_iff_needs (h : session.Completes keys registry.get? view)
    (q : String) :
    View.Compiled view q ↔ ∃ key ∈ keys, session.Needs registry.get? key q := by
  constructor
  · intro hCompiled
    rcases h.needed (.of_pending hPending) hCompiled with hBefore | hNeeded
    · exact absurd hBefore (not_compiled_of_pending hPending q)
    · exact hNeeded
  · rintro ⟨key, hKey, hNeeds⟩
    induction hNeeds with
    | refl => exact h.compiled key hKey
    | tail _ hUses ih => exact h.compiled_of_uses hPending ih hUses

/-- The same roots lead to the same resources. -/
theorem Completes.view_eq (h : session.Completes keys registry.get? view)
    (h' : session.Completes keys' registry.get? view') (hSame : ∀ key, key ∈ keys ↔ key ∈ keys') :
    view = view' := by
  have hSettled := (Settled.of_pending hPending).completes h
  have hSettled' := (Settled.of_pending hPending).completes h'
  have hIff : ∀ q, View.Compiled view q ↔ View.Compiled view' q := by
    intro q
    rw [h.compiled_iff_needs hPending, h'.compiled_iff_needs hPending]
    simp only [hSame]
  funext q
  by_cases hCompiled : View.Compiled view q
  · obtain ⟨r, hGet, hState⟩ := hCompiled
    obtain ⟨r', hGet', hState'⟩ := (hIff q).mp ⟨r, hGet, hState⟩
    rw [hGet, hGet', (hSettled.compiled q r hGet hState).unique
      (hSettled'.compiled q r' hGet' hState')]
  · rw [h.eq_of_not_compiled hCompiled,
      h'.eq_of_not_compiled fun hOther => hCompiled ((hIff q).mpr hOther)]

end

/-! ## Several roots -/

section

variable (hBuiltIn : session.compilers.BuiltIn)
include hBuiltIn

theorem compileEach_completes {roots : List String} {build last : Build}
    (h : session.compileEach roots build = (.ok (), last)) :
    session.Completes roots build.resources.get? last.resources.get? := by
  unfold compileEach at h
  induction roots generalizing build with
  | nil =>
    cases h
    exact .done _
  | cons root rest ih =>
    rw [compileEachBy] at h
    split at h
    · next middle hFirst => exact (compileRoot_completes hBuiltIn hFirst).append (ih h)
    · cases h

/-- Roots that can all be built are all compiled, in any order. -/
theorem compileEach_ok (hQuiet : session.Quiet) {roots : List String}
    (hBuilds : ∀ root ∈ roots, ∃ made, session.Builds sources root made) {build : Build}
    (hReady : ∀ root ∈ roots, session.Ready sources root build) :
    ∃ last, session.compileEach roots build = (.ok (), last) := by
  unfold compileEach
  induction roots generalizing build with
  | nil => exact ⟨build, rfl⟩
  | cons root rest ih =>
    rw [List.forall_mem_cons] at hBuilds hReady
    obtain ⟨made, hMade⟩ := hBuilds.1
    obtain ⟨middle, hMiddle⟩ := hMade.compile_ok hBuiltIn hQuiet build hReady.1
    have hBalanced := compile_frame Build.balanced_isFrame session root
      (session.rules.find? root) build
    rw [hMiddle] at hBalanced
    have hSettled := hReady.1.settled.completes (compileRoot_completes hBuiltIn hMiddle)
    simp only [compileEachBy, hMiddle]
    exact ih hBuilds.2 fun key hKey => (hReady.2 key hKey).of_balanced hSettled hBalanced

end

/-- From resources that are all pending, with observers that never fail, roots that compile in one
order compile in any other one, and leave the same resources behind. To compile all templates
comes to the same result, journal and resources in whatever order the registry lists them; if it
succeeds, its resources are those of compiling the templates in any order. -/
theorem order_irrelevant (session : Session) (hBuiltIn : session.compilers.BuiltIn)
    (hQuiet : session.Quiet) (build : Build)
    (hPending : ∀ r ∈ build.resources.entries, r.state = .pending) :
    (∀ roots roots' : List String, roots.Perm roots' → ∀ last,
      session.compileEach roots build = (.ok (), last) →
      ∃ last', session.compileEach roots' build = (.ok (), last') ∧
        last'.resources.get? = last.resources.get?) ∧
    (∀ listed : Registry, listed.entries.Perm build.resources.entries →
      (session.compileAll { build with resources := listed }).1 = (session.compileAll build).1 ∧
      (session.compileAll { build with resources := listed }).2.journal =
        (session.compileAll build).2.journal ∧
      (session.compileAll { build with resources := listed }).2.resources.get? =
        (session.compileAll build).2.resources.get?) ∧
    ∀ last, session.compileAll build = (.ok (), last) →
      ∀ roots : List String, roots.Perm (templatePaths build.resources) →
      ∃ last', session.compileEach roots build = (.ok (), last') ∧
        last'.resources.get? = last.resources.get? := by
  have hAgain : ∀ roots roots' : List String, roots.Perm roots' → ∀ view,
      session.Completes roots build.resources.get? view →
      ∃ last', session.compileEach roots' build = (.ok (), last') ∧
        last'.resources.get? = view := by
    intro roots roots' hPerm view hCompletes
    have hSettled := (Settled.of_pending hPending).completes hCompletes
    obtain ⟨last', hLast'⟩ := compileEach_ok hBuiltIn hQuiet
      (fun root hRoot => ⟨_, hSettled.builds (hCompletes.compiled root (hPerm.mem_iff.mpr hRoot))⟩)
      (fun root _ => Ready.of_pending hPending root)
    refine ⟨last', hLast', ?_⟩
    exact (compileEach_completes hBuiltIn hLast').view_eq hPending hCompletes
      fun key => hPerm.mem_iff.symm
  refine ⟨?_, ?_, ?_⟩
  · intro roots roots' hPerm last hOk
    exact hAgain roots roots' hPerm _ (compileEach_completes hBuiltIn hOk)
  · intro listed hListed
    have hAlike : Build.Alike { build with resources := listed } build := ⟨hListed, rfl, rfl⟩
    obtain ⟨hResult, hBuild⟩ := compileAll_alike session hAlike
    exact ⟨hResult, hBuild.journal, hBuild.get?_eq⟩
  · intro last hOk roots hPerm
    have hEach : session.compileEach (templatePaths build.resources)
        (build.write (.roots (templatePaths build.resources).length)) = (.ok (), last) := hOk
    have hCompletes := compileEach_completes hBuiltIn hEach
    exact hAgain _ roots hPerm.symm _ hCompletes

/-- A template that is compiled as a root, or within the one that includes it. -/
theorem order_irrelevant_include :
    let build : Build := { resources :=
      { entries := [{ path := "a.tpl", kind := .template,
                      content := "\x7b\x7binclude file=\"b.tpl\"\x7d\x7d".toUTF8 },
          { path := "b.tpl", kind := .template, content := "-".toUTF8 }]
        paths_nodup := by decide } }
    ∃ last last', Session.compileEach {} ["a.tpl", "b.tpl"] build = (.ok (), last) ∧
      Session.compileEach {} ["b.tpl", "a.tpl"] build = (.ok (), last') ∧
      last'.resources.get? = last.resources.get? := by
  intro build
  have hPending : ∀ r ∈ build.resources.entries, r.state = .pending := by decide
  have hRun : (Session.compileEach {} ["a.tpl", "b.tpl"] build).1.isOk = true := by
    decide +kernel
  obtain ⟨last, hLast⟩ := exists_ok_iff_isOk.mpr hRun
  have hPerm : ["a.tpl", "b.tpl"].Perm ["b.tpl", "a.tpl"] := .swap ..
  obtain ⟨last', hLast', hSame⟩ :=
    (order_irrelevant {} Compilers.builtIn_default quiet_default build hPending).1 _ _ hPerm
      last hLast
  exact ⟨last, last', hLast, hLast', hSame⟩

end Session

end AssetLoom
