import AssetLoom.Proofs.Aloof
import AssetLoom.Proofs.Completion
import AssetLoom.Proofs.Paired

/-!
# What a compile depends on

A compile that succeeds looks at nothing but what is compiled in the end. If a second build has the
same resources there, and any other ones elsewhere, the same root compiles in it as well: with the
same journal, to the same resources, and everything else is left alone (`compileRoot_local`).

The two runs are kept side by side (`Build.Twin`). That the first one succeeds is used at each step:
what it asks for is compiled when it goes on, and stays so, and is thus among the resources that
the two builds have in common.
-/

namespace AssetLoom

namespace Build

/-- On the paths in `S` the second build has the resources of the first one, and elsewhere it has
other ones. -/
structure Twin (S : String → Prop) (elsewhere : View) (a b : Build) : Prop where
  inside : ∀ path, S path → a.resources.get? path = b.resources.get? path
  outside : ∀ path, ¬ S path → b.resources.get? path = elsewhere path
  stack : a.stack = b.stack
  journal : a.journal = b.journal

/-- All that is compiled has its path in `S`. -/
def CompiledIn (S : String → Prop) (build : Build) : Prop :=
  ∀ path, build.resources.state? path = some .compiled → S path

theorem Balanced.compiledIn {S : String → Prop} {a b : Build} (h : Balanced a b)
    (hLast : b.CompiledIn S) : a.CompiledIn S :=
  fun path hState => hLast path (h.compiled path hState)

section

variable {S : String → Prop} {elsewhere : View} {a b : Build} {path : String}

theorem Twin.modify (h : Twin S elsewhere a b) (hPath : S path) (f : Resource → Resource)
    (hf : ∀ r, (f r).path = r.path) :
    Twin S elsewhere { a with resources := a.resources.modify path f hf }
      { b with resources := b.resources.modify path f hf } where
  inside q hq := by
    rw [Registry.get?_modify_eq_ite, Registry.get?_modify_eq_ite, h.inside q hq]
  outside q hq := by
    have hNe : q ≠ path := fun hEq => hq (hEq ▸ hPath)
    rw [Registry.get?_modify_eq_ite, if_neg hNe, h.outside q hq]
  stack := h.stack
  journal := h.journal

theorem twin_isPairing (S : String → Prop) (elsewhere : View) :
    IsPairing S (Twin S elsewhere) where
  get?_eq h hPath := h.inside _ hPath
  journal_eq h := h.journal
  write h entry := ⟨h.inside, h.outside, h.stack, by simp [Build.write, h.journal]⟩
  modify h hPath := h.modify hPath

theorem Twin.enter (h : Twin S elsewhere a b) (hPath : S path) (kind : ResourceKind) :
    Twin S elsewhere (a.enter path kind) (b.enter path kind) := by
  obtain ⟨hInside, hOutside, -, -⟩ := h.modify hPath (fun r => { r with state := .compiling })
    fun _ => rfl
  exact ⟨hInside, hOutside, by simp [Build.enter, h.stack], by simp [Build.enter, h.journal]⟩

theorem Twin.leave (h : Twin S elsewhere a b) (hPath : S path) (outcome : Outcome) :
    Twin S elsewhere (a.leave path outcome) (b.leave path outcome) := by
  obtain ⟨hInside, hOutside, -, -⟩ :=
    h.modify hPath (fun r => { r with state := stateAfter outcome }) fun _ => rfl
  cases outcome <;> exact ⟨hInside, hOutside, by simp [Build.leave, h.stack], h.journal⟩

end

end Build

namespace Session

open Build (Twin CompiledIn Balanced)

/-- Whenever the task succeeds in the first of two twins, it does so in the second one, with the
same result, and the builds are twins again. -/
def Repeats (session : Session) (compile : String → Option Rule → Build → Outcome × Build)
    (S : String → Prop) (elsewhere : View) {α : Type} (x : Task α) : Prop :=
  ∀ a b last result, Twin S elsewhere a b → CompiledIn S last →
    session.run compile x.run a = (.ok result, last) →
      ∃ last', session.run compile x.run b = (.ok result, last') ∧ Twin S elsewhere last last'

variable {session : Session} {compile : String → Option Rule → Build → Outcome × Build}
  {S : String → Prop} {elsewhere : View} {a b last : Build} {path : String} {rule : Option Rule}

/-! ## Tasks -/

namespace Repeats

/-- A task repeats if it comes to the same in any two twins. -/
theorem of_paired {x : Task Unit} (h : ∀ a b, Twin S elsewhere a b →
    Paired (Twin S elsewhere) (session.run compile x.run a) (session.run compile x.run b)) :
    Repeats session compile S elsewhere x :=
  fun _ _ _ _ hTwin _ hOk => (h _ _ hTwin).exists_eq hOk

theorem pure {α : Type} (result : α) :
    Repeats session compile S elsewhere (Pure.pure result : Task α) := by
  intro a b last result' hTwin _ hOk
  rw [run_task_pure] at hOk
  cases hOk
  exact ⟨b, run_task_pure .., hTwin⟩

theorem fetch (hPath : S path) : Repeats session compile S elsewhere (Task.fetch path) := by
  intro a b last r hTwin _ hOk
  obtain ⟨hGet, rfl⟩ := run_task_fetch_eq_ok_iff.mp hOk
  exact ⟨b, run_task_fetch_eq_ok_iff.mpr ⟨hTwin.inside path hPath ▸ hGet, rfl⟩, hTwin⟩

theorem emit (hPath : S path) (event : Event) :
    Repeats session compile S elsewhere (Task.emit event path) :=
  of_paired fun _ _ hTwin =>
    emit_paired (Build.twin_isPairing S elsewhere) session event hPath hTwin

theorem resolveUri (hPath : S path) (rule : Option Rule) :
    Repeats session compile S elsewhere (Task.resolveUri path rule) :=
  of_paired fun _ _ hTwin =>
    resolveUri_paired (Build.twin_isPairing S elsewhere) session rule hPath hTwin

theorem replaceContent (hPath : S path) (text : Text) :
    Repeats session compile S elsewhere (Task.replaceContent path text) :=
  of_paired fun _ _ hTwin =>
    replaceContent_paired (Build.twin_isPairing S elsewhere) text hPath hTwin

theorem countEdits (pass : Pass) (path : String) (count : Nat) :
    Repeats session compile S elsewhere (Task.countEdits pass path count) :=
  of_paired fun _ _ hTwin => ⟨rfl, (Build.twin_isPairing S elsewhere).write hTwin _⟩

section

variable (hBalanced : ∀ path rule build, Balanced build (compile path rule build).2)
include hBalanced

/-- Of the first part it is known, in the second one, that it has succeeded and what was compiled
then. -/
theorem bind {α β : Type} {x : Task α} {f : α → Task β}
    (hx : Repeats session compile S elsewhere x)
    (hf : ∀ result a middle, session.run compile x.run a = (.ok result, middle) →
      CompiledIn S middle → Repeats session compile S elsewhere (f result)) :
    Repeats session compile S elsewhere (x >>= f) := by
  intro a b last result hTwin hLast hOk
  obtain ⟨first, middle, hFirst, hSecond⟩ := (run_task_bind_eq_ok_iff ..).mp hOk
  have hRest := run_frame Build.balanced_isFrame hBalanced session (f first).run middle
  rw [hSecond] at hRest
  have hMiddle := hRest.compiledIn hLast
  obtain ⟨middle', hFirst', hTwin'⟩ := hx a b middle first hTwin hMiddle hFirst
  obtain ⟨last', hSecond', hLast'⟩ :=
    hf first a middle hFirst hMiddle middle middle' last result hTwin' hLast hSecond
  exact ⟨last', (run_task_bind_eq_ok_iff ..).mpr ⟨first, middle', hFirst', hSecond'⟩, hLast'⟩

/-- Of the first part nothing needs to be known in the second one. -/
theorem seq {α β : Type} {x : Task α} {f : α → Task β}
    (hx : Repeats session compile S elsewhere x)
    (hf : ∀ result, Repeats session compile S elsewhere (f result)) :
    Repeats session compile S elsewhere (x >>= f) :=
  bind hBalanced hx fun result _ _ _ _ => hf result

theorem assetCompiler (hPath : S path) (options : CompileOptions) (rule : Option Rule) :
    Repeats session compile S elsewhere (assetCompiler options path rule) :=
  seq hBalanced (emit hPath _) fun _ =>
    seq hBalanced (emit hPath _) fun _ => resolveUri hPath rule

variable (hCompiled : ∀ path rule build, (compile path rule build).1 = .ok () →
    (compile path rule build).2.resources.state? path = some .compiled)
  (hCompile : ∀ path rule a b last, Twin S elsewhere a b → CompiledIn S last →
    compile path rule a = (.ok (), last) →
      ∃ last', compile path rule b = (.ok (), last') ∧ Twin S elsewhere last last')
include hCompiled

omit hBalanced in
/-- What has been required is compiled. -/
theorem mem_of_requireBy {referrer target : String} (hLast : CompiledIn S last)
    (hOk : session.requireBy compile referrer target a = (.ok (), last)) : S target := by
  refine hLast target ?_
  obtain ⟨r, hGet, hState, rfl⟩ | hCalled := requireBy_eq_ok hOk
  · exact Registry.state?_eq_some_iff.mpr ⟨r, hGet, hState⟩
  · have hState := hCompiled target _ _ (congrArg Prod.fst hCalled)
    rwa [hCalled] at hState

include hCompile

omit hBalanced in
theorem require (referrer target : String) :
    Repeats session compile S elsewhere (Task.require referrer target) := by
  intro a b last result hTwin hLast hOk
  rw [run_task_require] at hOk ⊢
  have hTarget := mem_of_requireBy hCompiled hLast hOk
  unfold requireBy at hOk ⊢
  rw [← hTwin.inside target hTarget]
  split at hOk
  · cases hOk
  · dsimp only
    split at hOk
    · next hDone =>
      rw [if_pos hDone]
      cases hOk
      exact ⟨b, rfl, hTwin⟩
    · next hOpen =>
      rw [if_neg hOpen]
      dsimp only at hOk ⊢
      split at hOk
      · cases hOk
      · exact hCompile _ _ _ _ _ ((Build.twin_isPairing S elsewhere).write hTwin _) hLast hOk

theorem collectEdits (path : String) (replacement : Planned → Resource → Text)
    (planned : List Planned) :
    Repeats session compile S elsewhere (collectEdits path replacement planned) := by
  induction planned with
  | nil => exact pure _
  | cons p planned ih =>
    refine bind hBalanced (require hCompiled hCompile path p.key) fun _ _ _ hOk hMiddle => ?_
    have hKey : S p.key := mem_of_requireBy hCompiled hMiddle hOk
    exact seq hBalanced (fetch hKey) fun _ =>
      seq hBalanced ih fun _ => pure _

theorem identityPass (hPath : S path) (options : CompileOptions) :
    Repeats session compile S elsewhere (identityPass options path) := by
  refine seq hBalanced (fetch hPath) fun r =>
    seq hBalanced (collectEdits hBalanced hCompiled hCompile _ _ _) fun edits =>
      seq hBalanced (countEdits _ _ _) fun _ => ?_
  dsimp only
  split
  · exact replaceContent hPath _
  · exact pure _

theorem relativePass (hPath : S path) :
    Repeats session compile S elsewhere (relativePass path) := by
  refine seq hBalanced (fetch hPath) fun r =>
    seq hBalanced (collectEdits hBalanced hCompiled hCompile _ _ _) fun edits => ?_
  split
  · exact seq hBalanced (countEdits _ _ _) fun _ => replaceContent hPath _
  · exact pure _

theorem templateCompiler (hPath : S path) (options : CompileOptions) (rule : Option Rule) :
    Repeats session compile S elsewhere (templateCompiler options path rule) := by
  refine seq hBalanced (emit hPath _) fun _ =>
    seq hBalanced (fetch hPath) fun r => ?_
  cases r.permanent with
  | true =>
    exact seq hBalanced (emit hPath _) fun _ =>
      seq hBalanced (resolveUri hPath rule) fun _ => pure _
  | false =>
    exact seq hBalanced (identityPass hBalanced hCompiled hCompile hPath options) fun _ =>
      seq hBalanced (emit hPath _) fun _ =>
        seq hBalanced (resolveUri hPath rule) fun _ =>
          relativePass hBalanced hCompiled hCompile hPath

end

end Repeats

/-! ## Compiles -/

/-- A compile that succeeds in the first of two twins does the same in the second one. -/
theorem compileWithin_twin (hBuiltIn : session.compilers.BuiltIn) {depth : Nat}
    (hTwin : Twin S elsewhere a b) (hLast : CompiledIn S last)
    (hOk : session.compileWithin depth path rule a = (.ok (), last)) :
    ∃ last', session.compileWithin depth path rule b = (.ok (), last') ∧
      Twin S elsewhere last last' := by
  induction depth using Nat.strongRecOn generalizing path rule a b last with
  | ind depth ih =>
    have hPath : S path := by
      refine hLast path ?_
      have hState := compileWithin_compiled session (congrArg Prod.fst hOk)
      rwa [hOk] at hState
    obtain ⟨r, hGet, hState, rfl⟩ | ⟨inner, r, closing, rfl, hGet, hPending, hRun, rfl⟩ :=
      compileWithin_eq_ok hOk
    · rw [hTwin.inside path hPath] at hGet
      exact ⟨b, by simp only [compileWithin, hGet, hState], hTwin⟩
    · have hBalanced := compileWithin_frame Build.balanced_isFrame session inner
      have hRepeats : Repeats session (session.compileWithin inner) S elsewhere
          (session.compilers.forKind r.kind session.options path rule) := by
        rcases hBuiltIn r.kind with hTemplate | hAsset
        · rw [hTemplate]
          exact .templateCompiler hBalanced (fun _ _ _ => compileWithin_compiled session)
            (fun _ _ _ _ _ => ih inner (Nat.lt_succ_self inner)) hPath _ _
        · rw [hAsset]
          exact .assetCompiler hBalanced hPath _ _
      have hClosing : CompiledIn S closing := by
        intro q hState
        by_cases hq : q = path
        · exact hq ▸ hPath
        · refine hLast q ?_
          rw [Build.state?_leave, if_neg hq, hState]
      obtain ⟨closing', hRun', hTwin'⟩ :=
        hRepeats _ _ _ _ (hTwin.enter hPath r.kind) hClosing hRun
      rw [hTwin.inside path hPath] at hGet
      refine ⟨closing'.leave path (.ok ()), ?_, hTwin'.leave hPath _⟩
      simp only [compileWithin, hGet, hPending, hRun']

/-- A compile that succeeds depends only on what is compiled in the end. In any other build with the
same open compiles, the same journal and the same resources there, whatever it has elsewhere, the
root compiles as well: the same entries are written, to each of these resources happens the same,
and all others stay as they are. -/
theorem compileRoot_local {session : Session} (hBuiltIn : session.compilers.BuiltIn) {root : String}
    {build last other : Build} (hOk : session.compileRoot root build = (.ok (), last))
    (hStack : build.stack = other.stack) (hJournal : build.journal = other.journal)
    (hAgree : ∀ path, last.resources.state? path = some .compiled →
      build.resources.get? path = other.resources.get? path) :
    ∃ last', session.compileRoot root other = (.ok (), last') ∧ last'.journal = last.journal ∧
      last'.stack = last.stack ∧
      (∀ path, last.resources.state? path = some .compiled →
        last'.resources.get? path = last.resources.get? path) ∧
      ∀ path, last.resources.state? path ≠ some .compiled →
        last'.resources.get? path = other.resources.get? path := by
  have hTwin : Twin (fun path => last.resources.state? path = some .compiled)
      other.resources.get? build other := ⟨hAgree, fun _ _ => rfl, hStack, hJournal⟩
  -- The bound on the depth is taken large enough for both builds.
  have hDeep : session.compileWithin (max build.resources.size other.resources.size) root
      (session.rules.find? root) build = (.ok (), last) := by
    rw [← hOk, compileRoot, compile]
    exact session.compileWithin_eq _ _
      (Nat.le_trans build.idle_le_size (Nat.le_max_left ..)) build.idle_le_size
  obtain ⟨last', hOk', hLast⟩ := compileWithin_twin hBuiltIn hTwin (fun _ h => h) hDeep
  refine ⟨last', ?_, hLast.journal.symm, hLast.stack.symm,
    fun path hPath => (hLast.inside path hPath).symm, hLast.outside⟩
  rw [← hOk', compileRoot, compile]
  exact session.compileWithin_eq _ _ other.idle_le_size
    (Nat.le_trans other.idle_le_size (Nat.le_max_right ..))

/-- A page with an image compiles the same next to a broken template. -/
theorem compileRoot_local_page :
    let page : Resource :=
      { path := "a.tpl", kind := .template, content := "<img src=\"b.png\"/>".toUTF8 }
    let image : Resource := { path := "b.png", kind := .image, content := .empty }
    let broken : Resource :=
      { path := "c.tpl", kind := .template, content := "<img src=\"d.png\"/>".toUTF8 }
    let build : Build :=
      { resources := { entries := [page, image], paths_nodup := by decide } }
    let other : Build :=
      { resources := { entries := [image, broken, page], paths_nodup := by decide } }
    let last := (Session.compileRoot {} page.path build).2
    ∃ last', Session.compileRoot {} page.path other = (.ok (), last') ∧
      last'.journal = last.journal ∧
      last'.resources.get? page.path = last.resources.get? page.path ∧
      last'.resources.get? broken.path = some broken := by
  intro page image broken build other last
  have hOutcome : (Session.compileRoot {} page.path build).1 = .ok () := by decide +kernel
  have hOk : Session.compileRoot {} page.path build = (.ok (), last) := Prod.ext hOutcome rfl
  have hPaths : last.resources.entries.map Resource.path = [page.path, image.path] := by
    decide +kernel
  have hAgree : ∀ path, last.resources.state? path = some .compiled →
      build.resources.get? path = other.resources.get? path := by
    intro path hState
    have hMem := Registry.isSome_state?_iff.mp (Option.isSome_of_eq_some hState)
    rw [hPaths] at hMem
    rcases List.mem_cons.mp hMem with rfl | hMem
    · rfl
    · obtain rfl := List.mem_singleton.mp hMem
      rfl
  have hStack : build.stack = other.stack := rfl
  have hJournal : build.journal = other.journal := rfl
  obtain ⟨last', hOk', hSame, -, hInside, hOutside⟩ :=
    compileRoot_local Compilers.builtIn_default hOk hStack hJournal hAgree
  exact ⟨last', hOk', hSame, hInside page.path (by decide +kernel),
    hOutside broken.path (by decide +kernel)⟩

end Session

end AssetLoom
