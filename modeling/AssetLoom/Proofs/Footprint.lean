import AssetLoom.Proofs.Aloof
import AssetLoom.Proofs.Passes

/-!
# What a compile may touch

Whatever is compiled, and whether it succeeds or fails, the same resources are registered before and
after, and each of them keeps all that it is known by (`Session.Kin`). What must not be changed
keeps its content, and what no compile has been announced for is not changed at all
(`compile_footprint`).

A recipe announces the compile of its resource, by an event, before it asks for anything else. From
there on this resource may change; every other change comes from the compiles that the recipe asks
for, and these have announced themselves (`Footprint.run`).
-/

namespace AssetLoom

/-! ## Requests -/

/-- The request is one to compile something. -/
inductive Request.IsCompile : Request → Prop
  | compile (path : String) (rule : Option Rule) : IsCompile (.compile path rule)
  | compileRoot (path : String) : IsCompile (.compileRoot path)
  | compileAll : IsCompile .compileAll
  | require (referrer target : String) : IsCompile (.require referrer target)

/-- Whatever the recipe is answered, it never asks for a content to be replaced. -/
def Recipe.KeepsContent {α : Type} : Recipe α → Prop
  | .done _ => True
  | .ask request next =>
    (∀ path text, request ≠ .replaceContent path text) ∧ ∀ answer, KeepsContent (next answer)

theorem Recipe.keepsContent_assetCompiler (options : CompileOptions) (path : String)
    (rule : Option Rule) : (assetCompiler options path rule).run.KeepsContent := by
  refine ⟨nofun, fun answer => ?_⟩
  rcases answer with e | ⟨⟨⟩⟩
  · trivial
  · refine ⟨nofun, fun answer => ?_⟩
    rcases answer with e | ⟨⟨⟩⟩
    · trivial
    · exact ⟨nofun, fun _ => trivial⟩

/-- A built-in compiler announces the compile before it asks for anything else. -/
theorem Compilers.BuiltIn.announces {compilers : Compilers} (h : compilers.BuiltIn)
    (kind : ResourceKind) (options : CompileOptions) (path : String) (rule : Option Rule) :
    ∃ next, (compilers.forKind kind options path rule).run =
      .ask (.emit .preCompile path) next := by
  rcases h kind with hKind | hKind <;> rw [hKind]
  · exact ⟨_, rfl⟩
  · exact ⟨_, rfl⟩

namespace Session

open Build (Emits)

/-! ## Resources -/

/-- The content must not be changed: the resource is permanent, or compiled as an asset. -/
def Plain (session : Session) (r : Resource) : Prop :=
  r.permanent = true ∨ session.compilers.forKind r.kind = assetCompiler

/-- What a compile keeps of a resource. -/
structure Kin (session : Session) (before after : Resource) : Prop where
  path_eq : after.path = before.path
  label_eq : after.label = before.label
  kind_eq : after.kind = before.kind
  permanent_eq : after.permanent = before.permanent
  content_eq : session.Plain before → after.content = before.content

namespace Kin

variable {session : Session} {r r' r'' : Resource}

theorem refl (r : Resource) : session.Kin r r := ⟨rfl, rfl, rfl, rfl, fun _ => rfl⟩

theorem plain_iff (h : session.Kin r r') : session.Plain r' ↔ session.Plain r := by
  rw [Plain, h.permanent_eq, h.kind_eq, Plain]

theorem trans (h : session.Kin r r') (h' : session.Kin r' r'') : session.Kin r r'' where
  path_eq := h'.path_eq.trans h.path_eq
  label_eq := h'.label_eq.trans h.label_eq
  kind_eq := h'.kind_eq.trans h.kind_eq
  permanent_eq := h'.permanent_eq.trans h.permanent_eq
  content_eq hPlain := (h'.content_eq (h.plain_iff.mpr hPlain)).trans (h.content_eq hPlain)

theorem setState (r : Resource) (state : CompileState) : session.Kin r { r with state } :=
  ⟨rfl, rfl, rfl, rfl, fun _ => rfl⟩

theorem setUri (r : Resource) (uri : String) : session.Kin r { r with uri := some uri } :=
  ⟨rfl, rfl, rfl, rfl, fun _ => rfl⟩

theorem setContent (hText : ¬ session.Plain r) (text : Text) :
    session.Kin r { r with content := Text.encode text } :=
  ⟨rfl, rfl, rfl, rfl, fun hPlain => absurd hPlain hText⟩

end Kin

/-! ## Builds -/

/-- From one build to another these events are emitted, each resource is kept, and one is not
changed at all unless they announce its compile. -/
structure Footprint (session : Session) (start : Build) (events : List (Event × String))
    (now : Build) : Prop where
  emits : Emits start events now
  paths_eq : now.resources.entries.map Resource.path = start.resources.entries.map Resource.path
  kin : ∀ path before, start.resources.get? path = some before →
    ∃ after, now.resources.get? path = some after ∧ session.Kin before after
  untouched : ∀ path, (.preCompile, path) ∉ events →
    now.resources.get? path = start.resources.get? path

namespace Footprint

variable {session : Session} {start now middle last : Build} {events more : List (Event × String)}
  {path : String}

/-- Events alone change no resource. -/
theorem of_resources (hEmits : Emits start events now) (h : now.resources = start.resources) :
    session.Footprint start events now where
  emits := hEmits
  paths_eq := by rw [h]
  kin path before hGet := ⟨before, h ▸ hGet, .refl before⟩
  untouched path _ := by rw [h]

theorem refl (build : Build) : session.Footprint build [] build :=
  of_resources (.refl build) rfl

theorem trans (h : session.Footprint start events middle)
    (h' : session.Footprint middle more last) : session.Footprint start (events ++ more) last where
  emits := h.emits.trans h'.emits
  paths_eq := h'.paths_eq.trans h.paths_eq
  kin path before hGet := by
    obtain ⟨between, hBetween, hKin⟩ := h.kin path before hGet
    obtain ⟨after, hAfter, hKin'⟩ := h'.kin path between hBetween
    exact ⟨after, hAfter, hKin.trans hKin'⟩
  untouched path hSilent := by
    rw [List.mem_append, not_or] at hSilent
    rw [h'.untouched path hSilent.2, h.untouched path hSilent.1]

/-- What is written besides events leaves no trace. -/
theorem write (h : session.Footprint start events now) {entry : Entry}
    (hEntry : entry.emission? = none) : session.Footprint start events (now.write entry) := by
  simpa using h.trans (of_resources (Build.emits_write now hEntry) rfl)

/-- A resource whose compile has been announced may be changed, as long as it is kept. -/
theorem modify (h : session.Footprint start events now) (hTold : (.preCompile, path) ∈ events)
    (f : Resource → Resource) (hf : ∀ r, (f r).path = r.path)
    (hKin : ∀ r, now.resources.get? path = some r → session.Kin r (f r))
    (hJournal : last.journal = now.journal)
    (hResources : last.resources = now.resources.modify path f hf) :
    session.Footprint start events last where
  emits := by
    rw [Emits, hJournal]
    exact h.emits
  paths_eq := by rw [hResources, Registry.map_path_modify, h.paths_eq]
  kin q before hGet := by
    obtain ⟨between, hBetween, hBefore⟩ := h.kin q before hGet
    rw [hResources, Registry.get?_modify_eq_ite, hBetween]
    by_cases hq : q = path
    · rw [if_pos hq]
      exact ⟨f between, rfl, hBefore.trans (hKin between (hq ▸ hBetween))⟩
    · rw [if_neg hq]
      exact ⟨between, rfl, hBefore⟩
  untouched q hSilent := by
    have hq : q ≠ path := fun hEq => hSilent (hEq ▸ hTold)
    rw [hResources, Registry.get?_modify_eq_ite, if_neg hq, h.untouched q hSilent]

theorem leave (h : session.Footprint start events now) (hTold : (.preCompile, path) ∈ events)
    (outcome : Outcome) : session.Footprint start events (now.leave path outcome) :=
  h.modify hTold (fun r => { r with state := Build.stateAfter outcome }) (fun _ => rfl)
    (fun r _ => .setState r _) rfl (by cases outcome <;> rfl)

end Footprint

variable {session : Session} {start now build : Build} {events : List (Event × String)}
  {path : String}

/-! ## Requests and recipes -/

theorem exists_footprint_emit (session : Session) (event : Event) (path : String) (build : Build) :
    ∃ events, session.Footprint build events (session.emit event path build).2 := by
  cases hGet : build.resources.get? path with
  | none =>
    simp only [emit, hGet]
    exact ⟨[], .refl build⟩
  | some r =>
    exact ⟨_, .of_resources (emits_emit session (by simp [hGet]) event)
      (emit_resources session event path build)⟩

/-- To enter a compile and to announce it. -/
theorem footprint_announce (session : Session) {r : Resource}
    (hGet : build.resources.get? path = some r) :
    session.Footprint build [(.preCompile, path)]
      (session.emit .preCompile path (build.enter path r.kind)).2 := by
  have hSome : ((build.enter path r.kind).resources.get? path).isSome := by
    simp [Build.enter, Registry.get?_setState, hGet]
  have hEmits : Emits build [(.preCompile, path)]
      (session.emit .preCompile path (build.enter path r.kind)).2 :=
    (Build.emits_enter build path r.kind).trans (emits_emit session hSome .preCompile)
  -- The resource is entered before its compile is announced, so the event comes first here.
  let told : Build := { build with
    journal := (session.emit .preCompile path (build.enter path r.kind)).2.journal }
  have hEvent : session.Footprint build [(.preCompile, path)] told := .of_resources hEmits rfl
  exact hEvent.modify List.mem_cons_self (fun r => { r with state := .compiling }) (fun _ => rfl)
    (fun r _ => .setState r _) rfl (emit_resources session .preCompile path _)

theorem Footprint.resolveUri (h : session.Footprint start events now)
    (hTold : (.preCompile, path) ∈ events) (rule : Option Rule) :
    ∃ more, session.Footprint start (events ++ more) (session.resolveUri path rule now).2 := by
  obtain ⟨first, hFirst⟩ := exists_footprint_emit session .preResolve path now
  have hBegun := h.trans hFirst
  unfold Session.resolveUri
  generalize session.emit .preResolve path now = answer at hBegun
  obtain ⟨outcome, told⟩ := answer
  cases outcome with
  | error e => exact ⟨first, hBegun⟩
  | ok =>
    cases uriBy rule path with
    | error e => exact ⟨first, hBegun⟩
    | ok uri =>
      have hWritten : session.Footprint start (events ++ first)
          (told.write (.resolved path uri)) := hBegun.write rfl
      have hSet : session.Footprint start (events ++ first) { told.write (.resolved path uri) with
          resources := told.resources.setUri path uri } :=
        hWritten.modify (List.mem_append_left _ hTold) (fun r => { r with uri := some uri })
          (fun _ => rfl) (fun r _ => .setUri r uri) rfl rfl
      obtain ⟨second, hSecond⟩ := exists_footprint_emit session .resolved path
        { told.write (.resolved path uri) with resources := told.resources.setUri path uri }
      exact ⟨first ++ second, List.append_assoc .. ▸ hSet.trans hSecond⟩

theorem Footprint.replaceContent (h : session.Footprint start events now)
    (hTold : (.preCompile, path) ∈ events)
    (hText : ∀ r, now.resources.get? path = some r → ¬ session.Plain r) (text : Text) :
    session.Footprint start events (replaceContent path text now).2 := by
  unfold Session.replaceContent
  split
  · exact h
  · exact h.modify hTold (fun r => { r with content := Text.encode text }) (fun _ => rfl)
      (fun r hGet => .setContent (hText r hGet) text) rfl rfl

section

variable {compile : String → Option Rule → Build → Outcome × Build}
  (hCompile : ∀ path rule build,
    ∃ events, session.Footprint build events (compile path rule build).2)
include hCompile

theorem exists_footprint_requireBy (referrer target : String) (build : Build) :
    ∃ events, session.Footprint build events
      (session.requireBy compile referrer target build).2 := by
  unfold requireBy
  split
  · exact ⟨[], .refl build⟩
  · split
    · exact ⟨[], .refl build⟩
    · dsimp only
      split
      · exact ⟨[], .refl build⟩
      · obtain ⟨events, hEvents⟩ := hCompile target (session.rules.find? target)
          (build.write (.reached referrer target))
        exact ⟨events, ((Footprint.refl build).write rfl).trans hEvents⟩

theorem exists_footprint_compileEachBy (paths : List String) (build : Build) :
    ∃ events, session.Footprint build events
      (session.compileEachBy compile paths build).2 := by
  induction paths generalizing build with
  | nil => exact ⟨[], .refl build⟩
  | cons path rest ih =>
    obtain ⟨first, hFirst⟩ := hCompile path (session.rules.find? path) build
    unfold compileEachBy
    generalize compile path (session.rules.find? path) build = answer at hFirst
    obtain ⟨outcome, middle⟩ := answer
    cases outcome with
    | error e => exact ⟨first, hFirst⟩
    | ok =>
      obtain ⟨second, hSecond⟩ := ih middle
      exact ⟨first ++ second, hFirst.trans hSecond⟩

theorem exists_footprint_answer {request : Request} (hRequest : request.IsCompile)
    (build : Build) :
    ∃ events, session.Footprint build events (session.answer compile request build).2 := by
  cases hRequest with
  | compile path rule => exact hCompile path rule build
  | compileRoot path => exact hCompile path _ build
  | compileAll =>
    obtain ⟨events, hEvents⟩ := exists_footprint_compileEachBy hCompile
      (templatePaths build.resources) (build.write (.roots (templatePaths build.resources).length))
    exact ⟨events, ((Footprint.refl build).write rfl).trans hEvents⟩
  | require referrer target => exact exists_footprint_requireBy hCompile referrer target build

/-- What a recipe asks for leaves the footprint of the compile that it belongs to. -/
theorem Footprint.answer (h : session.Footprint start events now)
    (hTold : (.preCompile, path) ∈ events) {request : Request} (hOwn : request.Own path)
    (hText : (∀ q text, request ≠ .replaceContent q text) ∨
      ∀ r, now.resources.get? path = some r → ¬ session.Plain r) :
    ∃ more, session.Footprint start (events ++ more) (session.answer compile request now).2 := by
  cases hOwn with
  | lookUp key => exact ⟨[], h.trans (.refl now)⟩
  | emit event =>
    obtain ⟨more, hMore⟩ := exists_footprint_emit session event path now
    exact ⟨more, h.trans hMore⟩
  | require key =>
    obtain ⟨more, hMore⟩ := exists_footprint_requireBy hCompile path key now
    exact ⟨more, h.trans hMore⟩
  | resolveUri rule => exact h.resolveUri hTold rule
  | replaceContent text =>
    refine ⟨[], (List.append_nil events).symm ▸ h.replaceContent hTold ?_ text⟩
    exact hText.resolve_left fun hNone => hNone path text rfl
  | countEdits pass count => exact ⟨[], (List.append_nil events).symm ▸ h.write rfl⟩

/-- A recipe may replace the content of its resource only if this is not plain. -/
theorem Footprint.run {α : Type} {recipe : Recipe (Except CompileError α)}
    (hOrderly : recipe.Orderly path) {before : Resource}
    (hGet : start.resources.get? path = some before)
    (hText : recipe.KeepsContent ∨ ¬ session.Plain before)
    (h : session.Footprint start events now) (hTold : (.preCompile, path) ∈ events) :
    ∃ more, session.Footprint start (events ++ more) (session.run compile recipe now).2 := by
  induction recipe generalizing events now with
  | done result => exact ⟨[], (List.append_nil events).symm ▸ h⟩
  | ask request next ih =>
    obtain ⟨more, hMore⟩ := Footprint.answer hCompile h hTold hOrderly.1 <| by
      refine hText.imp (fun hKeeps => hKeeps.1) fun hChanging r hNow hPlain => ?_
      obtain ⟨after, hAfter, hKin⟩ := h.kin path before hGet
      rw [hNow] at hAfter
      cases hAfter
      exact hChanging (hKin.plain_iff.mp hPlain)
    simp only [Session.run]
    cases hFailure : request.failure? (session.answer compile request now).1 with
    | some e =>
      rw [(hOrderly.2 _).1 e hFailure]
      exact ⟨more, hMore⟩
    | none =>
      obtain ⟨rest, hRest⟩ := ih _ ((hOrderly.2 _).2 hFailure)
        (hText.imp_left fun hKeeps => hKeeps.2 _) hMore (List.mem_append_left _ hTold)
      exact ⟨more ++ rest, List.append_assoc .. ▸ hRest⟩

/-- A recipe that announces the compile before it asks for anything else, from the opening of the
compile on. -/
theorem exists_footprint_run {α : Type} {recipe : Recipe (Except CompileError α)}
    (hOrderly : recipe.Orderly path)
    (hFirst : ∃ next, recipe = .ask (.emit .preCompile path) next) {r : Resource}
    (hGet : build.resources.get? path = some r)
    (hText : recipe.KeepsContent ∨ ¬ session.Plain r) :
    ∃ events, (.preCompile, path) ∈ events ∧ session.Footprint build events
      (session.run compile recipe (build.enter path r.kind)).2 := by
  obtain ⟨next, rfl⟩ := hFirst
  have hAnnounced := footprint_announce session hGet
  have hTold : (Event.preCompile, path) ∈ [(Event.preCompile, path)] := List.mem_cons_self
  simp only [Session.run, answer]
  cases hFailure : failureOf (session.emit .preCompile path (build.enter path r.kind)).1 with
  | some e =>
    rw [(hOrderly.2 _).1 e hFailure]
    exact ⟨_, hTold, hAnnounced⟩
  | none =>
    obtain ⟨more, hMore⟩ := Footprint.run hCompile ((hOrderly.2 _).2 hFailure) hGet
      (hText.imp_left fun hKeeps => hKeeps.2 _) hAnnounced hTold
    exact ⟨_, List.mem_append_left more hTold, hMore⟩

end

/-! ## Compiles -/

theorem compileWithin_footprint (hBuiltIn : session.compilers.BuiltIn) (depth : Nat)
    (path : String) (rule : Option Rule) (build : Build) :
    ∃ events, session.Footprint build events
      (session.compileWithin depth path rule build).2 := by
  induction depth generalizing path rule build with
  | zero =>
    simp only [compileWithin]
    repeat' split
    all_goals exact ⟨[], .refl build⟩
  | succ depth ih =>
    simp only [compileWithin]
    split
    · exact ⟨[], .refl build⟩
    · next r hGet =>
      split
      · exact ⟨[], .refl build⟩
      · exact ⟨[], .refl build⟩
      · have hRun : ∃ events, (.preCompile, path) ∈ events ∧ session.Footprint build events
            (session.run (session.compileWithin depth)
              (session.compilers.forKind r.kind session.options path rule).run
              (build.enter path r.kind)).2 := by
          by_cases hPlain : session.Plain r
          · have hEntered : (build.enter path r.kind).resources.get? path =
                some { r with state := .compiling } := by
              simp [Build.enter, Registry.get?_setState, hGet]
            have hSame : session.run (session.compileWithin depth)
                (session.compilers.forKind r.kind session.options path rule).run
                (build.enter path r.kind) =
              session.run (session.compileWithin depth)
                (assetCompiler session.options path rule).run (build.enter path r.kind) :=
              run_forKind_of_plain hBuiltIn (r := { r with state := .compiling }) hEntered hPlain
            rw [hSame]
            exact exists_footprint_run ih (.assetCompiler _ rule) ⟨_, rfl⟩ hGet
              (.inl (Recipe.keepsContent_assetCompiler ..))
          · exact exists_footprint_run ih (hBuiltIn.orderly r.kind _ path rule)
              (hBuiltIn.announces r.kind _ path rule) hGet (.inr hPlain)
        obtain ⟨events, hTold, hEvents⟩ := hRun
        exact ⟨events, hEvents.leave hTold _⟩

/-- Whatever is asked to be compiled, and whether it succeeds or fails: no resource is added or
removed, and each keeps its path, its name, its kind and whether it is permanent. Permanent
resources and assets keep their content. A resource changes in any way only if the start of its
compile is among the events that are emitted meanwhile. -/
theorem compile_footprint (session : Session) (hBuiltIn : session.compilers.BuiltIn)
    {request : Request} (hRequest : request.IsCompile) (build : Build) :
    let last := (session.answer session.compile request build).2
    last.resources.entries.map Resource.path = build.resources.entries.map Resource.path ∧
      ∃ events, last.journal.emissions = build.journal.emissions ++ events ∧
        ∀ path before, build.resources.get? path = some before →
          ∃ after, last.resources.get? path = some after ∧ after.path = before.path ∧
            after.id = before.id ∧ after.kind = before.kind ∧
            after.permanent = before.permanent ∧
            (before.permanent = true ∨ session.compilers.forKind before.kind = assetCompiler →
              after.content = before.content) ∧
            ((.preCompile, path) ∉ events → after = before) := by
  intro last
  obtain ⟨events, hEvents⟩ : ∃ events, session.Footprint build events last :=
    exists_footprint_answer (fun path rule build =>
      compileWithin_footprint hBuiltIn _ path rule build) hRequest build
  refine ⟨hEvents.paths_eq, events, hEvents.emits, fun path before hBefore => ?_⟩
  obtain ⟨after, hAfter, hKin⟩ := hEvents.kin path before hBefore
  refine ⟨after, hAfter, hKin.path_eq, ?_, hKin.kind_eq, hKin.permanent_eq, hKin.content_eq, ?_⟩
  · rw [Resource.id, hKin.label_eq, hKin.path_eq, Resource.id]
  · intro hSilent
    have hSame := hEvents.untouched path hSilent
    rw [hAfter, hBefore] at hSame
    exact Option.some.inj hSame

/-- A page that fails, as it includes a template that is missing. Its image keeps the content, and a
style that nothing refers to is left alone. -/
theorem compile_footprint_missing :
    let page : Resource :=
      { path := "a.tpl"
        kind := .template
        content := ("<img src=\"b.png\"/>\x7b\x7binclude file=\"d.tpl\"\x7d\x7d").toUTF8 }
    let image : Resource := { path := "b.png", kind := .image, content := "1".toUTF8 }
    let style : Resource := { path := "c.css", kind := .style, content := "2".toUTF8 }
    let build : Build := { resources :=
      { entries := [page, image, style], paths_nodup := by decide } }
    let last := (Session.compileRoot {} page.path build).2
    (Session.compileRoot {} page.path build).1 = .error (.unresolved "d.tpl" page.path) ∧
      last.resources.paths = build.resources.paths ∧
      (∃ compiled, last.resources.get? image.path = some compiled ∧
        compiled.content = image.content) ∧
      last.resources.get? style.path = some style := by
  intro page image style build last
  have hError : (Session.compileRoot {} page.path build).1 =
    .error (.unresolved "d.tpl" page.path) := by decide +kernel
  have hSilent : (.preCompile, style.path) ∉ last.journal.emissions := by decide +kernel
  obtain ⟨hPaths, events, hEvents, hKept⟩ :=
    compile_footprint {} Compilers.builtIn_default (.compileRoot page.path) build
  have hAll : last.journal.emissions = events := hEvents
  refine ⟨hError, ?_, ?_, ?_⟩
  · exact congrArg (List.mergeSort · fun a b => a ≤ b) hPaths
  · obtain ⟨compiled, hCompiled, -, -, -, -, hContent, -⟩ := hKept image.path image rfl
    exact ⟨compiled, hCompiled, hContent (.inr rfl)⟩
  · obtain ⟨after, hAfter, -, -, -, -, -, hSame⟩ := hKept style.path style rfl
    exact hSame (hAll ▸ hSilent) ▸ hAfter

end Session

end AssetLoom
