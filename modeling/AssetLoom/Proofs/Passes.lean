import AssetLoom.Proofs.Rewrite
import AssetLoom.Proofs.Run

/-!
# When the built-in compilers succeed

The recipes of the two built-in compilers taken apart: which of their parts have to succeed for
the whole to (`run_assetCompiler_eq_ok_iff`, `run_templateCompiler_eq_ok_iff`). A permanent
template is compiled like an asset. A pass succeeds as soon as its edits are collected
(`run_identityPass_eq_ok_iff`, `run_relativePass_eq_ok_iff`), for to store them never fails.
-/

namespace AssetLoom

/-! ## Changes of one resource -/

namespace Registry

variable {registry : Registry} {path : String} {r : Resource}

theorem get?_modify_eq_update (hGet : registry.get? path = some r) (f : Resource → Resource)
    (hf : ∀ r, (f r).path = r.path) :
    (registry.modify path f hf).get? = Function.update registry.get? path (some (f r)) := by
  funext q
  rw [get?_modify_eq_ite]
  by_cases hq : q = path
  · simp [hq, hGet]
  · simp [hq]

theorem get?_setState_eq_update (hGet : registry.get? path = some r) (state : CompileState) :
    (registry.setState path state).get? =
      Function.update registry.get? path (some { r with state }) :=
  get?_modify_eq_update hGet ..

theorem get?_setUri_eq_update (hGet : registry.get? path = some r) (uri : String) :
    (registry.setUri path uri).get? =
      Function.update registry.get? path (some { r with uri := some uri }) :=
  get?_modify_eq_update hGet ..

theorem get?_setContent_eq_update (hGet : registry.get? path = some r) (text : Text) :
    (registry.setContent path text).get? =
      Function.update registry.get? path (some { r with content := Text.encode text }) :=
  get?_modify_eq_update hGet ..

end Registry

namespace Session

variable {session : Session} {compile : String → Option Rule → Build → Outcome × Build}

/-! ## The compilers -/

/-- An asset is compiled between two events, and its URI is resolved. -/
theorem run_assetCompiler_eq_ok_iff {options : CompileOptions} {path : String} {rule : Option Rule}
    {build last : Build} :
    session.run compile (assetCompiler options path rule).run build = (.ok (), last) ↔
      ∃ told compiled, session.emit .preCompile path build = (.ok (), told) ∧
        session.emit .compiled path told = (.ok (), compiled) ∧
        session.resolveUri path rule compiled = (.ok (), last) := by
  simp only [assetCompiler, run_task_bind_eq_ok_iff, run_task_emit, run_task_resolveUri]
  constructor
  · rintro ⟨⟨⟩, told, hTold, ⟨⟩, compiled, hCompiled, hLast⟩
    exact ⟨told, compiled, hTold, hCompiled, hLast⟩
  · rintro ⟨told, compiled, hTold, hCompiled, hLast⟩
    exact ⟨(), told, hTold, (), compiled, hCompiled, hLast⟩

/-- A permanent template is compiled like an asset. -/
theorem run_templateCompiler_of_permanent {options : CompileOptions} {path : String}
    {rule : Option Rule} {build : Build} {r : Resource}
    (hGet : build.resources.get? path = some r) (hPermanent : r.permanent = true) :
    session.run compile (templateCompiler options path rule).run build =
      session.run compile (assetCompiler options path rule).run build := by
  simp only [templateCompiler, assetCompiler, run_task_bind, run_task_emit]
  cases hTold : session.emit .preCompile path build with
  | mk outcome told =>
    cases outcome with
    | error e => rfl
    | ok =>
      have hFetch : session.run compile (Task.fetch path).run told = (.ok r, told) :=
        run_task_fetch_eq_ok_iff.mpr ⟨emit_eq_ok_resources hTold ▸ hGet, rfl⟩
      simp only [hFetch, hPermanent, Bool.not_true, Bool.false_eq_true, if_false, run_task_bind,
        run_task_emit, run_task_resolveUri, run_task_pure]
      cases session.emit .compiled path told with
      | mk outcome compiled =>
        cases outcome with
        | error e => rfl
        | ok =>
          dsimp only
          cases session.resolveUri path rule compiled with
          | mk outcome last => cases outcome <;> rfl

/-- Whatever is permanent, or an asset, is compiled like an asset. -/
theorem run_forKind_of_plain (hBuiltIn : session.compilers.BuiltIn) {options : CompileOptions}
    {path : String} {rule : Option Rule} {build : Build} {r : Resource}
    (hGet : build.resources.get? path = some r)
    (hPlain : r.permanent = true ∨ session.compilers.forKind r.kind = assetCompiler) :
    session.run compile (session.compilers.forKind r.kind options path rule).run build =
      session.run compile (assetCompiler options path rule).run build := by
  rcases hBuiltIn r.kind with hTemplate | hAsset
  · rcases hPlain with hPermanent | hAsset
    · rw [hTemplate]
      exact run_templateCompiler_of_permanent hGet hPermanent
    · rw [hAsset]
  · rw [hAsset]

/-- A template that is not permanent is compiled in two passes. -/
theorem run_templateCompiler_eq_ok_iff {options : CompileOptions} {path : String}
    {rule : Option Rule} {build last : Build} {r : Resource}
    (hGet : build.resources.get? path = some r) (hPermanent : r.permanent = false) :
    session.run compile (templateCompiler options path rule).run build = (.ok (), last) ↔
      ∃ told passed compiled resolved, session.emit .preCompile path build = (.ok (), told) ∧
        session.run compile (identityPass options path).run told = (.ok (), passed) ∧
        session.emit .compiled path passed = (.ok (), compiled) ∧
        session.resolveUri path rule compiled = (.ok (), resolved) ∧
        session.run compile (relativePass path).run resolved = (.ok (), last) := by
  simp only [templateCompiler, run_task_bind_eq_ok_iff, run_task_emit, run_task_fetch_eq_ok_iff]
  constructor
  · rintro ⟨⟨⟩, told, hTold, r', _, ⟨hGet', rfl⟩, hRest⟩
    rw [emit_eq_ok_resources hTold, hGet] at hGet'
    cases hGet'
    simp only [hPermanent, Bool.not_false, if_true, run_task_bind_eq_ok_iff, run_task_emit,
      run_task_resolveUri] at hRest
    obtain ⟨⟨⟩, passed, hPassed, ⟨⟩, compiled, hCompiled, ⟨⟩, resolved, hResolved, hLast⟩ := hRest
    exact ⟨_, passed, compiled, resolved, hTold, hPassed, hCompiled, hResolved, hLast⟩
  · rintro ⟨told, passed, compiled, resolved, hTold, hPassed, hCompiled, hResolved, hLast⟩
    refine ⟨(), told, hTold, r, told, ⟨emit_eq_ok_resources hTold ▸ hGet, rfl⟩, ?_⟩
    simp only [hPermanent, Bool.not_false, if_true, run_task_bind_eq_ok_iff, run_task_emit,
      run_task_resolveUri]
    exact ⟨(), passed, hPassed, (), compiled, hCompiled, (), resolved, hResolved, hLast⟩

/-! ## The passes -/

theorem run_collectEdits_cons_eq_ok_iff {path : String} {replacement : Planned → Resource → Text}
    {p : Planned} {planned : List Planned} {build last : Build} {edits : List Edit} :
    session.run compile (collectEdits path replacement (p :: planned)).run build =
        (.ok edits, last) ↔
      ∃ middle r others, session.requireBy compile path p.key build = (.ok (), middle) ∧
        middle.resources.get? p.key = some r ∧
        session.run compile (collectEdits path replacement planned).run middle =
          (.ok others, last) ∧
        edits = ⟨p.region, replacement p r⟩ :: others := by
  simp only [collectEdits, run_task_bind_eq_ok_iff, run_task_require, run_task_fetch_eq_ok_iff,
    run_task_pure, Prod.mk.injEq, Except.ok.injEq]
  constructor
  · rintro ⟨⟨⟩, middle, hRequire, r, _, ⟨hGet, rfl⟩, others, _, hOthers, rfl, rfl⟩
    exact ⟨_, r, others, hRequire, hGet, hOthers, rfl⟩
  · rintro ⟨middle, r, others, hRequire, hGet, hOthers, rfl⟩
    exact ⟨(), middle, hRequire, r, middle, ⟨hGet, rfl⟩, others, last, hOthers, rfl, rfl⟩

theorem run_identityPass_eq_ok_iff {options : CompileOptions} {path : String}
    {build last : Build} {r : Resource} (hGet : build.resources.get? path = some r) :
    session.run compile (identityPass options path).run build = (.ok (), last) ↔
      ∃ edits middle, session.run compile (collectEdits path identityReplacement
          (identityPlan options path r.text)).run build = (.ok edits, middle) ∧
        session.run compile
          (if applyEdits (searchedText options r.text) edits ≠ r.text then
            Task.replaceContent path (applyEdits (searchedText options r.text) edits)
          else pure () : Task Unit).run (middle.write (.edits .identity path edits.length)) =
            (.ok (), last) := by
  simp only [identityPass, run_task_bind_eq_ok_iff, run_task_fetch_eq_ok_iff, hGet,
    run_task_countEdits, Option.some.injEq]
  constructor
  · rintro ⟨_, _, ⟨rfl, rfl⟩, edits, middle, hEdits, ⟨⟩, _, ⟨⟩, hLast⟩
    exact ⟨edits, middle, hEdits, hLast⟩
  · rintro ⟨edits, middle, hEdits, hLast⟩
    exact ⟨r, build, ⟨rfl, rfl⟩, edits, middle, hEdits, (), _, rfl, hLast⟩

theorem run_relativePass_eq_ok_iff {path : String} {build last : Build} {r : Resource}
    (hGet : build.resources.get? path = some r) :
    session.run compile (relativePass path).run build = (.ok (), last) ↔
      ∃ edits middle, session.run compile (collectEdits path
          (relativeReplacement (r.uri.getD path)) (relativePlan path r.text)).run build =
            (.ok edits, middle) ∧
        session.run compile
          (if edits ≠ [] then do
            Task.countEdits .relative path edits.length
            Task.replaceContent path (applyEdits r.text edits)
          else pure () : Task Unit).run middle = (.ok (), last) := by
  simp only [relativePass, run_task_bind_eq_ok_iff, run_task_fetch_eq_ok_iff, hGet,
    Option.some.injEq]
  constructor
  · rintro ⟨_, _, ⟨rfl, rfl⟩, edits, middle, hEdits, hLast⟩
    exact ⟨edits, middle, hEdits, hLast⟩
  · rintro ⟨edits, middle, hEdits, hLast⟩
    exact ⟨r, build, ⟨rfl, rfl⟩, edits, middle, hEdits, hLast⟩
variable (session compile) in
/-- Storing the text of the first pass never fails. -/
theorem run_storeIdentity (build : Build) {path : String} {r : Resource}
    (hGet : build.resources.get? path = some r) (output : Text) :
    ∃ last, session.run compile (if output ≠ r.text then Task.replaceContent path output
        else pure () : Task Unit).run build = (.ok (), last) ∧
      last.resources.get? = Function.update build.resources.get? path
        (some { r with content := if output = r.text then r.content else Text.encode output }) := by
  by_cases hSame : output = r.text
  · refine ⟨build, by simp only [hSame, ne_eq, not_true, if_false, run_task_pure], ?_⟩
    simp only [hSame, if_true, ← hGet, Function.update_eq_self]
  · refine ⟨{ build with resources := build.resources.setContent path output }, ?_, ?_⟩
    · simp only [hSame, ne_eq, not_false_iff, if_true]
      exact run_task_replaceContent_eq_ok_iff.mpr ⟨by simp [hGet], rfl⟩
    · rw [if_neg hSame]
      exact Registry.get?_setContent_eq_update hGet output

variable (session compile) in
/-- Storing the text of the second pass never fails. -/
theorem run_storeRelative (build : Build) {path : String} {r : Resource}
    (hGet : build.resources.get? path = some r) (edits : List Edit) (output : Text) :
    ∃ last, session.run compile (if edits ≠ [] then do
          Task.countEdits .relative path edits.length
          Task.replaceContent path output
        else pure () : Task Unit).run build = (.ok (), last) ∧
      last.resources.get? = Function.update build.resources.get? path
        (some { r with content := if edits = [] then r.content else Text.encode output }) := by
  by_cases hNone : edits = []
  · refine ⟨build, by simp only [hNone, ne_eq, not_true, if_false, run_task_pure], ?_⟩
    simp only [hNone, if_true, ← hGet, Function.update_eq_self]
  · refine ⟨{ build.write (.edits .relative path edits.length) with
      resources := build.resources.setContent path output }, ?_, ?_⟩
    · simp only [hNone, ne_eq, not_false_iff, if_true, run_task_bind_eq_ok_iff,
        run_task_countEdits]
      exact ⟨(), _, rfl, run_task_replaceContent_eq_ok_iff.mpr ⟨by simp [Build.write, hGet], rfl⟩⟩
    · rw [if_neg hNone]
      exact Registry.get?_setContent_eq_update hGet output

end Session

end AssetLoom
