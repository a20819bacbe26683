import AssetLoom.Proofs.Aloof
import AssetLoom.Proofs.Passes

/-!
# The stages of a template

While a template is compiled its text and its URI go through four stages, and there is nothing in
between: a pass writes its whole output at once, and nothing writes to the template while the
resources that it names are compiled. At every single change of a compile, and when it ends, the
template is at one of these stages (`compile_stages`), and observers are told of each event at the
stage that belongs to it. What the first pass has written, and the URI, stay if a later step fails.
-/

namespace AssetLoom

/-- How far a template has come. -/
inductive Stage
  /-- As it was when the compile started. -/
  | untouched
  /-- With the output of the first pass. -/
  | rewritten
  /-- With its URI as well. -/
  | located
  /-- With the output of the second pass. -/
  | finished
  deriving DecidableEq

/-- The stage of a template when observers are told of an event of it. -/
def Event.stage : Event → Stage
  | preCompile => .untouched
  | compiled | preResolve => .rewritten
  | resolved => .located

namespace Stage

/-- The events that have been emitted when a stage begins. -/
def before : Stage → List Event
  | untouched => []
  | rewritten => [.preCompile]
  | located => [.preCompile, .compiled, .preResolve]
  | finished => Event.order

/-- The events that have been emitted when a stage ends. -/
def through : Stage → List Event
  | untouched => [.preCompile]
  | rewritten => [.preCompile, .compiled, .preResolve]
  | located | finished => Event.order

end Stage

section

variable {path : String} {dependency : String → Resource} {r : Resource} {edits : List Edit}

theorem identityContent_of_edits {options : CompileOptions}
    (h : edits = passEdits identityReplacement dependency (identityPlan options path r.text)) :
    identityContent options path dependency r.content =
      if applyEdits (searchedText options r.text) edits = r.text then r.content
      else Text.encode (applyEdits (searchedText options r.text) edits) := by
  subst h
  rfl

theorem relativeContent_of_edits {own : String}
    (h : edits = passEdits (relativeReplacement own) dependency (relativePlan path r.text)) :
    relativeContent path own dependency r.content =
      if edits = [] then r.content else Text.encode (applyEdits r.text edits) := by
  subst h
  simp only [relativeContent, passEdits_eq_nil_iff, relativeText, Resource.text]

end

theorem Build.Keeps.view_eq {a b : Build} (h : Keeps a b) {key : String}
    (hKey : View.Compiled a.resources.get? key) :
    b.resources.get? key = a.resources.get? key := by
  obtain ⟨r, hGet, hState⟩ := hKey
  rw [h key r hGet hState, hGet]

namespace Session

section

variable {session : Session} {compile : String → Option Rule → Build → Outcome × Build}
  {trail : String → Option Rule → Build → List Build} (hSub : Subordinate compile trail)
include hSub

theorem Subordinate.requireBy_compiled {referrer target : String} {build last : Build}
    (h : session.requireBy compile referrer target build = (.ok (), last)) :
    View.Compiled last.resources.get? target := by
  rcases requireBy_eq_ok h with ⟨r, hGet, hState, rfl⟩ | hLast
  · exact ⟨r, hGet, hState⟩
  · have hState := hSub.compiled target _ _ (congrArg Prod.fst hLast)
    rw [hLast] at hState
    exact Registry.state?_eq_some_iff.mp hState

/-- The edits of a pass are those with the resources that are compiled in the end. -/
theorem Subordinate.collectEdits_eq_ok {path : String} {replacement : Planned → Resource → Text}
    {planned : List Planned} {build last : Build} {edits : List Edit}
    (hOpen : build.resources.state? path = some .compiling)
    (h : session.run compile (collectEdits path replacement planned).run build =
      (.ok edits, last)) :
    edits = passEdits replacement (View.resource last.resources.get?) planned ∧
      ∀ key ∈ planned.map Planned.key, View.Compiled last.resources.get? key := by
  induction planned generalizing build edits with
  | nil =>
    rw [collectEdits, run_task_pure] at h
    cases h
    exact ⟨rfl, by simp⟩
  | cons p planned ih =>
    obtain ⟨middle, r, others, hRequire, hGet, hOthers, rfl⟩ :=
      run_collectEdits_cons_eq_ok_iff.mp h
    have hFrame := requireBy_frame Build.balanced_isFrame hSub.balanced session path p.key build
    rw [hRequire] at hFrame
    have hStill := (hFrame.compiling_iff path).mpr hOpen
    have hKeeps := (hSub.beside_collectEdits hStill hOthers).2
    obtain ⟨rfl, hCompiled⟩ := ih hStill hOthers
    have hFirst := hSub.requireBy_compiled hRequire
    have hSame := hKeeps.view_eq hFirst
    refine ⟨?_, List.forall_mem_cons.mpr ⟨?_, hCompiled⟩⟩
    · rw [passEdits_cons, View.resource_eq (hSame.trans hGet)]
    · rw [View.Compiled, hSame]
      exact hFirst

end

/-- A compile of a pending template, whose text may be changed, from its start on. -/
structure Attempt (session : Session) where
  path : String
  rule : Option Rule
  start : Build
  template : Resource
  get : start.resources.get? path = some template
  pending : template.state = .pending
  permanent : template.permanent = false
  compiler : session.compilers.forKind template.kind = templateCompiler

namespace Attempt

open Build (Walk Aloof Keeps Balanced)

variable {session : Session} (attempt : Attempt session)

/-- The content after the first pass, given what the other resources are. -/
def rewritten (view : View) : ByteArray :=
  identityContent session.options attempt.path (View.resource view) attempt.template.content

/-- What the first pass needs. -/
def firstKeys : List String :=
  (identityPlan session.options attempt.path attempt.template.text).map Planned.key

/-- What the second pass needs. -/
def secondKeys (view : View) : List String :=
  (relativePlan attempt.path (Text.decode (attempt.rewritten view))).map Planned.key

/-- What the template is at a stage, but for its state, given what the other resources are. The
resources that a pass needs are compiled before it writes anything. -/
inductive Version (view : View) : Stage → Resource → Prop
  | untouched : Version view .untouched attempt.template
  | rewritten (hFirst : ∀ key ∈ attempt.firstKeys, View.Compiled view key) :
      Version view .rewritten { attempt.template with content := attempt.rewritten view }
  | located {uri : String} (hFirst : ∀ key ∈ attempt.firstKeys, View.Compiled view key)
      (hUri : uriBy attempt.rule attempt.path = .ok uri) :
      Version view .located
        { attempt.template with content := attempt.rewritten view, uri := some uri }
  | finished {uri : String} (hFirst : ∀ key ∈ attempt.firstKeys, View.Compiled view key)
      (hUri : uriBy attempt.rule attempt.path = .ok uri)
      (hSecond : ∀ key ∈ attempt.secondKeys view, View.Compiled view key) :
      Version view .finished { attempt.template with
        content := relativeContent attempt.path uri (View.resource view) (attempt.rewritten view)
        uri := some uri }

/-- What the entries since the start say of a template at a stage: which events of it have been
emitted, and what observers have been shown. A stage is not reached before all edits of the pass
before it are known. -/
structure Account (view : View) (stage : Stage) (told : List Event) (entries : Journal) :
    Prop where
  told_eq : eventsOf attempt.path entries.emissions = told
  shown : ∀ number event seen, .observed number event seen ∈ entries →
    seen.path = attempt.path →
      ∃ v, attempt.Version view event.stage v ∧ seen = { v with state := .compiling }
  first : stage ≠ .untouched → ∃ count, .edits .identity attempt.path count ∈ entries
  second : stage = .finished → attempt.secondKeys view = [] ∨
    ∃ count, .edits .relative attempt.path count ∈ entries

/-- By now an event has been emitted, and no observer failed. -/
def Passed (event : Event) (point : Build) : Prop :=
  ∃ asked told, attempt.start.journal <+: asked.journal ∧
    session.emit event attempt.path asked = (.ok (), told) ∧ told.journal <+: point.journal

/-- The template is at a stage, in a state, and the given events of it have been emitted. -/
structure At (stage : Stage) (told : List Event) (state : CompileState) (point : Build) :
    Prop where
  version : ∃ v, attempt.Version point.resources.get? stage v ∧
    point.resources.get? attempt.path = some { v with state }
  before : stage.before <+: told
  through : told <+: stage.through
  account : ∃ entries, point.journal = attempt.start.journal ++ entries ∧
    attempt.Account point.resources.get? stage told entries
  passed : .preResolve ∈ stage.before → attempt.Passed .preResolve point

variable {attempt} {stage : Stage} {told : List Event} {state : CompileState}
  {view view' : View} {a b build last : Build}

/-! ## What stays true as other resources are completed -/

section

variable (hKeep : ∀ key, View.Compiled view key → view' key = view key)
include hKeep

theorem rewritten_congr (hFirst : ∀ key ∈ attempt.firstKeys, View.Compiled view key) :
    attempt.rewritten view' = attempt.rewritten view :=
  identityContent_congr fun key hKey => View.resource_congr (hKeep key (hFirst key hKey))

theorem compiled_keep {keys : List String} (h : ∀ key ∈ keys, View.Compiled view key) :
    ∀ key ∈ keys, View.Compiled view' key := by
  intro key hKey
  rw [View.Compiled, hKeep key (h key hKey)]
  exact h key hKey

theorem Version.keep {v : Resource} (h : attempt.Version view stage v) :
    attempt.Version view' stage v := by
  cases h with
  | untouched => exact .untouched
  | rewritten hFirst =>
    rw [← rewritten_congr hKeep hFirst]
    exact .rewritten (compiled_keep hKeep hFirst)
  | located hFirst hUri =>
    rw [← rewritten_congr hKeep hFirst]
    exact .located (compiled_keep hKeep hFirst) hUri
  | finished hFirst hUri hSecond =>
    have hRewritten := rewritten_congr hKeep hFirst
    have hContent : ∀ uri, relativeContent attempt.path uri (View.resource view)
        (attempt.rewritten view) = relativeContent attempt.path uri (View.resource view')
          (attempt.rewritten view') := by
      intro uri
      rw [hRewritten]
      exact relativeContent_congr fun key hKey =>
        View.resource_congr (hKeep key (hSecond key hKey)).symm
    rw [hContent]
    refine .finished (compiled_keep hKeep hFirst) hUri ?_
    rw [secondKeys, hRewritten]
    exact compiled_keep hKeep hSecond

theorem Account.append {entries more : Journal} {later : List Event} {v : Resource}
    (hVersion : attempt.Version view stage v) (h : attempt.Account view stage told entries)
    (hLater : eventsOf attempt.path more.emissions = later)
    (hShown : ∀ number event seen, .observed number event seen ∈ more →
      seen.path = attempt.path →
        ∃ v, attempt.Version view' event.stage v ∧ seen = { v with state := .compiling }) :
    attempt.Account view' stage (told ++ later) (entries ++ more) where
  told_eq := by
    rw [Journal.emissions, List.filterMap_append, eventsOf_append, ← Journal.emissions, h.told_eq,
      ← Journal.emissions, hLater]
  shown := by
    intro number event seen hEntry hPath
    rcases List.mem_append.mp hEntry with hEntry | hEntry
    · obtain ⟨v, hThen, hSeen⟩ := h.shown number event seen hEntry hPath
      exact ⟨v, hThen.keep hKeep, hSeen⟩
    · exact hShown number event seen hEntry hPath
  first hStage := by
    obtain ⟨count, hEntry⟩ := h.first hStage
    exact ⟨count, List.mem_append_left _ hEntry⟩
  second := by
    rintro rfl
    cases hVersion with
    | finished hFirst =>
      rw [secondKeys, rewritten_congr hKeep hFirst]
      rcases h.second rfl with hNone | ⟨count, hEntry⟩
      · exact .inl hNone
      · exact .inr ⟨count, List.mem_append_left _ hEntry⟩

end

theorem Passed.mono {event : Event} (h : attempt.Passed event a)
    (hPrefix : a.journal <+: b.journal) : attempt.Passed event b := by
  obtain ⟨asked, told, hStart, hEmit, hTold⟩ := h
  exact ⟨asked, told, hStart, hEmit, hTold.trans hPrefix⟩

/-- A template stays at its stage while nothing that is compiled changes. Its state may change, and
events of it may be told. -/
theorem At.extend (h : attempt.At stage told state a) (hKeeps : Keeps a b) {state' : CompileState}
    (hGet : b.resources.get? attempt.path =
      (a.resources.get? attempt.path).map fun r => { r with state := state' })
    {more : Journal} {later : List Event} (hMore : b.journal = a.journal ++ more)
    (hLater : eventsOf attempt.path more.emissions = later)
    (hThrough : told ++ later <+: stage.through)
    (hShown : ∀ number event seen, .observed number event seen ∈ more →
      seen.path = attempt.path → ∃ v, attempt.Version b.resources.get? event.stage v ∧
        seen = { v with state := .compiling }) :
    attempt.At stage (told ++ later) state' b := by
  obtain ⟨v, hVersion, hStands⟩ := h.version
  obtain ⟨entries, hEntries, hAccount⟩ := h.account
  have hView : ∀ key, View.Compiled a.resources.get? key →
      b.resources.get? key = a.resources.get? key := fun key hKey => hKeeps.view_eq hKey
  refine ⟨⟨v, hVersion.keep hView, ?_⟩, h.before.trans (List.prefix_append ..), hThrough,
    ⟨entries ++ more, ?_, ?_⟩, ?_⟩
  · rw [hGet, hStands]
    rfl
  · rw [hMore, hEntries, List.append_assoc]
  · exact hAccount.append hView hVersion hLater hShown
  · exact fun hLate => (h.passed hLate).mono (hMore ▸ List.prefix_append ..)

theorem At.keep (h : attempt.At stage told state a) (hKeeps : Keeps a b) {state' : CompileState}
    (hGet : b.resources.get? attempt.path =
      (a.resources.get? attempt.path).map fun r => { r with state := state' })
    {more : Journal} (hMore : b.journal = a.journal ++ more)
    (hQuiet : ∀ entry ∈ more, ¬ entry.TellsOf attempt.path) :
    attempt.At stage told state' b := by
  have hExtend := h.extend hKeeps hGet hMore (eventsOf_emissions_eq_nil hQuiet)
    (by simpa using h.through) fun _ _ _ hEntry hPath => absurd hPath (hQuiet _ hEntry)
  rwa [List.append_nil] at hExtend

theorem At.beside (h : attempt.At stage told state a) (hAloof : Aloof attempt.path a b)
    (hKeeps : Keeps a b) : attempt.At stage told state b := by
  obtain ⟨v, -, hStands⟩ := h.version
  obtain ⟨more, hMore, hQuiet⟩ := hAloof.quiet
  refine h.keep hKeeps ?_ hMore hQuiet
  rw [hAloof.get?_eq, hStands]
  rfl

theorem At.state?_eq (h : attempt.At stage told state a) :
    a.resources.state? attempt.path = some state := by
  obtain ⟨v, -, hStands⟩ := h.version
  exact Registry.state?_eq_some_iff.mpr ⟨_, hStands, rfl⟩

/-- An entry that tells no event of the template. -/
theorem At.write (h : attempt.At stage told state a) {entry : Entry}
    (hEntry : ¬ entry.TellsOf attempt.path) : attempt.At stage told state (a.write entry) :=
  h.beside ((Aloof.refl _ a).write hEntry) (.of_resources rfl)

/-- The compile starts from a build in which nothing has happened to the template yet. -/
theorem at_enter (h : Aloof attempt.path attempt.start a) :
    attempt.At .untouched [] .compiling (a.enter attempt.path attempt.template.kind) := by
  obtain ⟨entries, hEntries, hQuiet⟩ := h.quiet
  have hQuiet' : ∀ entry ∈ entries ++ [.opened attempt.path attempt.template.kind],
      ¬ entry.TellsOf attempt.path := by
    intro entry hEntry
    rcases List.mem_append.mp hEntry with hEntry | hEntry
    · exact hQuiet entry hEntry
    · rw [List.mem_singleton.mp hEntry]
      exact id
  refine ⟨⟨attempt.template, .untouched, ?_⟩, List.prefix_refl _, List.nil_prefix,
    ⟨_, ?_, eventsOf_emissions_eq_nil hQuiet', ?_, fun hStage => absurd rfl hStage, nofun⟩, nofun⟩
  · rw [Build.enter, Registry.get?_setState, if_pos rfl, h.get?_eq, attempt.get]
    rfl
  · rw [Build.enter, hEntries, List.append_assoc]
  · exact fun _ _ _ hEntry hPath => absurd hPath (hQuiet' _ hEntry)

theorem At.leave (h : attempt.At stage told state a) (hState : state ≠ .compiled)
    (outcome : Outcome) :
    attempt.At stage told (Build.stateAfter outcome) (a.leave attempt.path outcome) := by
  refine h.keep (.leave (by simpa [h.state?_eq] using hState) outcome) ?_
    (List.append_nil _).symm (by simp)
  cases outcome <;> exact (Registry.get?_setState ..).trans (if_pos rfl)

theorem At.permanent (h : attempt.At stage told state a) {r : Resource}
    (hGet : a.resources.get? attempt.path = some r) : r.permanent = false := by
  obtain ⟨v, hVersion, hStands⟩ := h.version
  obtain rfl := Option.some.inj (hGet.symm.trans hStands)
  cases hVersion <;> exact attempt.permanent

theorem At.isSome_get? (h : attempt.At stage told state a) :
    (a.resources.get? attempt.path).isSome := by
  obtain ⟨v, -, hStands⟩ := h.version
  exact Option.isSome_iff_exists.mpr ⟨_, hStands⟩

/-! ## Events -/

theorem At.emitted (h : attempt.At stage told .compiling a) {event : Event}
    (hThrough : told ++ [event] <+: stage.through) :
    attempt.At stage (told ++ [event]) .compiling (a.write (.emitted event attempt.path)) := by
  obtain ⟨v, -, hStands⟩ := h.version
  have hKeeps : Keeps a (a.write (.emitted event attempt.path)) := .of_resources rfl
  have hMore : (a.write (.emitted event attempt.path)).journal =
      a.journal ++ [.emitted event attempt.path] := rfl
  refine h.extend hKeeps ?_ hMore ?_ hThrough (by simp)
  · simp [Build.write, hStands]
  · simp [Journal.emissions, Entry.emission?]

theorem At.observed (h : attempt.At stage told .compiling a) {event : Event}
    (hStage : event.stage = stage) {r : Resource}
    (hGet : a.resources.get? attempt.path = some r) (number : Nat) :
    attempt.At stage told .compiling (a.write (.observed number event r)) := by
  obtain ⟨v, hVersion, hStands⟩ := h.version
  rw [hGet, Option.some.injEq] at hStands
  have hKeeps : Keeps a (a.write (.observed number event r)) := .of_resources rfl
  have hMore : (a.write (.observed number event r)).journal =
      a.journal ++ [.observed number event r] := rfl
  have hNone : eventsOf attempt.path (Journal.emissions [.observed number event r]) = [] := rfl
  have hExtend : attempt.At stage (told ++ []) .compiling (a.write (.observed number event r)) := by
    refine h.extend hKeeps ?_ hMore hNone (by simpa using h.through) ?_
    · simp [Build.write, hGet, hStands]
    · intro number' event' seen hEntry _
      cases List.mem_singleton.mp hEntry
      exact ⟨v, hStage ▸ hVersion, hStands⟩
  rwa [List.append_nil] at hExtend

/-- All the while observers are told of an event, the template is at its stage. -/
theorem At.emit (h : attempt.At stage told .compiling build) {event : Event}
    (hStage : event.stage = stage) (hThrough : told ++ [event] <+: stage.through) :
    (∀ point ∈ session.emitTrail event attempt.path build,
      attempt.At stage (told ++ [event]) .compiling point) ∧
    attempt.At stage (told ++ [event]) .compiling
      (session.emit event attempt.path build).2 := by
  obtain ⟨v, -, hStands⟩ := h.version
  have hTrail : ∀ point ∈ session.emitTrail event attempt.path build,
      attempt.At stage (told ++ [event]) .compiling point ∧
        point.resources.get? attempt.path = build.resources.get? attempt.path := by
    refine forall_emitTrail ⟨h.emitted hThrough, rfl⟩ ?_
    rintro point number r hGet ⟨hPoint, hSame⟩
    exact ⟨hPoint.observed hStage (hSame.trans hGet) number, hSame⟩
  refine ⟨fun point hPoint => (hTrail point hPoint).1, ?_⟩
  rcases List.mem_cons.mp (walk_emitTrail session event attempt.path build).last_mem with
    hNone | hLast
  · -- What is registered is emitted, so the journal grows.
    have hJournal := emits_emit session (Option.isSome_iff_exists.mpr ⟨_, hStands⟩) event
    rw [hNone, Build.Emits] at hJournal
    simp at hJournal
  · exact (hTrail _ hLast).1

/-! ## The steps from stage to stage -/

/-- A template moves on to another stage. Nothing that is compiled changes, and no event of the
template is told. -/
theorem At.advance (h : attempt.At stage told .compiling a) (hKeeps : Keeps a b)
    {more : Journal} (hMore : b.journal = a.journal ++ more)
    (hQuiet : ∀ entry ∈ more, ¬ entry.TellsOf attempt.path) {stage' : Stage} {v : Resource}
    (hVersion : attempt.Version b.resources.get? stage' v)
    (hGet : b.resources.get? attempt.path = some { v with state := .compiling })
    (hBefore : stage'.before <+: told) (hThrough : told <+: stage'.through)
    (hFirst : stage ≠ .untouched ∨ ∃ count, .edits .identity attempt.path count ∈ more)
    (hSecond : stage' = .finished → attempt.secondKeys b.resources.get? = [] ∨
      ∃ count, .edits .relative attempt.path count ∈ more)
    (hPassed : .preResolve ∈ stage'.before → attempt.Passed .preResolve b) :
    attempt.At stage' told .compiling b := by
  obtain ⟨v₀, hVersion₀, -⟩ := h.version
  obtain ⟨entries, hEntries, hAccount⟩ := h.account
  have hAppend := hAccount.append (fun key hKey => hKeeps.view_eq hKey) hVersion₀
    (eventsOf_emissions_eq_nil hQuiet) fun _ _ _ hEntry hPath => absurd hPath (hQuiet _ hEntry)
  rw [List.append_nil] at hAppend
  refine ⟨⟨v, hVersion, hGet⟩, hBefore, hThrough, ⟨entries ++ more, ?_, ?_⟩, hPassed⟩
  · rw [hMore, hEntries, List.append_assoc]
  · refine ⟨hAppend.told_eq, hAppend.shown, fun _ => ?_, fun hLate => ?_⟩
    · rcases hFirst with hStage | ⟨count, hEntry⟩
      · exact hAppend.first hStage
      · exact ⟨count, List.mem_append_right _ hEntry⟩
    · exact (hSecond hLate).imp_right fun ⟨count, hEntry⟩ =>
        ⟨count, List.mem_append_right _ hEntry⟩

theorem At.start_prefix (h : attempt.At stage told state a) :
    attempt.start.journal <+: a.journal := by
  obtain ⟨entries, hEntries, -⟩ := h.account
  exact hEntries ▸ List.prefix_append ..

/-- The URI is set once no observer of `preResolve` has failed. -/
theorem At.locate {uri : String}
    (h : attempt.At .rewritten [.preCompile, .compiled, .preResolve] .compiling a)
    (hPassed : attempt.Passed .preResolve a) (hUri : uriBy attempt.rule attempt.path = .ok uri) :
    attempt.At .located [.preCompile, .compiled, .preResolve] .compiling
      { a with resources := a.resources.setUri attempt.path uri } := by
  have hKeeps : Keeps a { a with resources := a.resources.setUri attempt.path uri } :=
    .setUri (by simp [h.state?_eq]) uri
  obtain ⟨v, hVersion, hStands⟩ := h.version
  cases hVersion with
  | rewritten hFirst =>
    refine h.advance hKeeps (List.append_nil _).symm (by simp)
      (Version.keep (fun key hKey => hKeeps.view_eq hKey) (.located hFirst hUri)) ?_ (by decide)
      (by decide) (.inl (by decide)) nofun fun _ => hPassed
    rw [Registry.get?_setUri, if_pos rfl, hStands]
    rfl

/-- The output of the first pass is written once what it needs is compiled. -/
theorem At.rewrite (h : attempt.At .untouched [.preCompile] .compiling a) {r : Resource}
    (hGet : a.resources.get? attempt.path = some r)
    (hFirst : ∀ key ∈ (identityPlan session.options attempt.path r.text).map Planned.key,
      View.Compiled a.resources.get? key)
    (hKeeps : Keeps a b) {count : Nat}
    (hMore : b.journal = a.journal ++ [.edits .identity attempt.path count])
    (hLast : b.resources.get? attempt.path = some { r with
      content :=
        identityContent session.options attempt.path (View.resource a.resources.get?) r.content }) :
    attempt.At .rewritten [.preCompile] .compiling b := by
  obtain ⟨v, hVersion, hStands⟩ := h.version
  cases hVersion with
  | untouched =>
    obtain rfl := Option.some.inj (hGet.symm.trans hStands)
    exact h.advance hKeeps hMore (by simp [Entry.TellsOf])
      (Version.keep (fun key hKey => hKeeps.view_eq hKey) (.rewritten hFirst)) hLast (by decide)
      (by decide) (.inr ⟨count, by simp⟩) nofun (by simp [Stage.before])

/-- So is the output of the second pass. -/
theorem At.finish (h : attempt.At .located Event.order .compiling a) {r : Resource}
    (hGet : a.resources.get? attempt.path = some r)
    (hSecond : ∀ key ∈ (relativePlan attempt.path r.text).map Planned.key,
      View.Compiled a.resources.get? key)
    (hKeeps : Keeps a b) {more : Journal} (hMore : b.journal = a.journal ++ more)
    (hQuiet : ∀ entry ∈ more, ¬ entry.TellsOf attempt.path)
    (hCount : relativePlan attempt.path r.text = [] ∨
      ∃ count, .edits .relative attempt.path count ∈ more)
    (hLast : b.resources.get? attempt.path = some { r with
      content := relativeContent attempt.path (r.uri.getD attempt.path)
        (View.resource a.resources.get?) r.content }) :
    attempt.At .finished Event.order .compiling b := by
  have hView : ∀ key, View.Compiled a.resources.get? key →
      b.resources.get? key = a.resources.get? key := fun key hKey => hKeeps.view_eq hKey
  obtain ⟨v, hVersion, hStands⟩ := h.version
  cases hVersion with
  | located hFirst hUri =>
    obtain rfl := Option.some.inj (hGet.symm.trans hStands)
    refine h.advance hKeeps hMore hQuiet (Version.keep hView (.finished hFirst hUri hSecond)) hLast
      (by decide) (by decide) (.inl (by decide)) (fun _ => ?_)
      fun _ => (h.passed (by decide)).mono (hMore ▸ List.prefix_append ..)
    rw [secondKeys, rewritten_congr hView hFirst]
    exact hCount.imp_left fun hNone => List.map_eq_nil_iff.mpr hNone

/-! ## Tasks -/

section

variable {compile : String → Option Rule → Build → Outcome × Build}
  {trail : String → Option Rule → Build → List Build} {α β : Type}

variable (attempt) in
/-- The template is being compiled, and at one of its stages. -/
def Under (point : Build) : Prop :=
  ∃ stage told, attempt.At stage told .compiling point

variable (attempt) in
/-- The template has not come to its last stage. -/
def Stopped (point : Build) : Prop :=
  ∃ stage told, stage ≠ .finished ∧ attempt.At stage told .compiling point

variable (attempt compile trail) in
/-- All the while a task is carried out, from a build that satisfies `P` on, the template is at one
of its stages. With the result the build satisfies `Q`; a failure comes before the last stage. -/
def Leads (P : Build → Prop) (x : Task α) (Q : α → Build → Prop) : Prop :=
  ∀ build, P build → (∀ point ∈ runTrail compile trail session x.run build, attempt.Under point) ∧
    match session.run compile x.run build with
    | (.ok a, last) => Q a last
    | (.error _, last) => attempt.Stopped last

namespace Leads

variable {P : Build → Prop} {Q : α → Build → Prop} {R : β → Build → Prop}

theorem ok {x : Task α} (h : attempt.Leads compile trail P x Q) (hBuild : P build) {result : α}
    (hRun : session.run compile x.run build = (.ok result, last)) : Q result last := by
  have hLast := (h build hBuild).2
  rwa [hRun] at hLast

theorem bind {x : Task α} {f : α → Task β} (hx : attempt.Leads compile trail P x Q)
    (hf : ∀ result, attempt.Leads compile trail (Q result) (f result) R) :
    attempt.Leads compile trail P (x >>= f) R := by
  intro build hBuild
  obtain ⟨hTrail, hMiddle⟩ := hx build hBuild
  rw [runTrail_task_bind, run_task_bind]
  generalize session.run compile x.run build = answer at hMiddle ⊢
  obtain ⟨answer, middle⟩ := answer
  cases answer with
  | ok result =>
    obtain ⟨hRest, hLast⟩ := hf result middle hMiddle
    exact ⟨List.forall_mem_append.mpr ⟨hTrail, hRest⟩, hLast⟩
  | error e => exact ⟨by simpa using hTrail, hMiddle⟩

theorem pure {result : α} (h : ∀ build, P build → Q result build) :
    attempt.Leads compile trail P (Pure.pure result : Task α) Q :=
  fun build hBuild => ⟨by simp [runTrail], h build hBuild⟩

theorem fetch (hRegistered : ∀ build, P build → (build.resources.get? attempt.path).isSome) :
    attempt.Leads compile trail P (Task.fetch attempt.path)
      fun r build => P build ∧ build.resources.get? attempt.path = some r := by
  intro build hBuild
  obtain ⟨r, hGet⟩ := Option.isSome_iff_exists.mp (hRegistered build hBuild)
  have hRun : session.run compile (Task.fetch attempt.path).run build = (.ok r, build) :=
    run_task_fetch_eq_ok_iff.mpr ⟨hGet, rfl⟩
  rw [hRun]
  refine ⟨?_, hBuild, hGet⟩
  simp only [Task.fetch, ExceptT.run_mk, runTrail, answerTrail, answer, hGet, List.append_nil,
    List.not_mem_nil, false_implies, implies_true]

theorem emit {event : Event} (hStage : event.stage = stage)
    (hThrough : told ++ [event] <+: stage.through) (hStopped : stage ≠ .finished) :
    attempt.Leads compile trail (attempt.At stage told .compiling) (Task.emit event attempt.path)
      fun _ => attempt.At stage (told ++ [event]) .compiling := by
  intro build hBuild
  obtain ⟨hTrail, hLast⟩ := hBuild.emit hStage hThrough
  rw [run_task_emit]
  refine ⟨?_, ?_⟩
  · intro point hPoint
    refine ⟨stage, told ++ [event], hTrail point ?_⟩
    simpa [Task.emit, runTrail, answerTrail] using hPoint
  · generalize session.emit event attempt.path build = answer at hLast
    obtain ⟨outcome, last⟩ := answer
    cases outcome with
    | ok => exact hLast
    | error e => exact ⟨stage, _, hStopped, hLast⟩

theorem resolveUri :
    attempt.Leads compile trail (attempt.At .rewritten [.preCompile, .compiled] .compiling)
      (Task.resolveUri attempt.path attempt.rule)
      fun _ => attempt.At .located Event.order .compiling := by
  intro build hBuild
  obtain ⟨hFirst, hTold⟩ := hBuild.emit (show Event.preResolve.stage = .rewritten from rfl)
    (by decide)
  have hTrail : runTrail compile trail session
      (Task.resolveUri attempt.path attempt.rule).run build =
        session.resolveTrail attempt.path attempt.rule build := List.append_nil _
  rw [hTrail, run_task_resolveUri, resolveTrail, Session.resolveUri]
  generalize hEmit : session.emit .preResolve attempt.path build = answer at hTold
  obtain ⟨outcome, told⟩ := answer
  have hUnder : ∀ point ∈ session.emitTrail .preResolve attempt.path build,
      attempt.Under point := fun point hPoint => ⟨_, _, hFirst point hPoint⟩
  have hStopped : attempt.Stopped told := ⟨.rewritten, _, by decide, hTold⟩
  cases outcome with
  | error e => exact ⟨by simpa using hUnder, hStopped⟩
  | ok =>
    cases hUri : uriBy attempt.rule attempt.path with
    | error e => exact ⟨by simpa using hUnder, hStopped⟩
    | ok uri =>
      have hWritten := hTold.write (show ¬ (Entry.resolved attempt.path uri).TellsOf _ from id)
      have hPassed : attempt.Passed .preResolve (told.write (.resolved attempt.path uri)) :=
        ⟨build, told, hBuild.start_prefix, hEmit, List.prefix_append ..⟩
      have hLocated := hWritten.locate hPassed hUri
      obtain ⟨hSecond, hLast⟩ := hLocated.emit (show Event.resolved.stage = .located from rfl)
        (by decide)
      refine ⟨List.forall_mem_append.mpr ⟨hUnder, List.forall_mem_cons.mpr
        ⟨⟨_, _, hWritten⟩, List.forall_mem_cons.mpr ⟨⟨_, _, hLocated⟩, ?_⟩⟩⟩, ?_⟩
      · exact fun point hPoint => ⟨_, _, hSecond point hPoint⟩
      · dsimp only
        generalize session.emit .resolved attempt.path _ = answer at hLast ⊢
        obtain ⟨outcome, last⟩ := answer
        cases outcome with
        | ok => exact hLast
        | error e => exact ⟨.located, _, by decide, hLast⟩

theorem countEdits {pass : Pass} {count : Nat}
    (h : ∀ build, P build → attempt.Under (build.write (.edits pass attempt.path count))) :
    attempt.Leads compile trail P (Task.countEdits pass attempt.path count)
      fun _ last => ∃ build, P build ∧ last = build.write (.edits pass attempt.path count) :=
  fun build hBuild =>
    ⟨by simpa [Task.countEdits, runTrail, answerTrail] using h build hBuild, build, hBuild, rfl⟩

theorem replaceContent {text : Text}
    (hRegistered : ∀ build, P build → (build.resources.get? attempt.path).isSome)
    (h : ∀ build, P build → attempt.At stage told .compiling
      { build with resources := build.resources.setContent attempt.path text }) :
    attempt.Leads compile trail P (Task.replaceContent attempt.path text)
      fun _ => attempt.At stage told .compiling := by
  intro build hBuild
  have hRun : session.run compile (Task.replaceContent attempt.path text).run build =
      (.ok (), { build with resources := build.resources.setContent attempt.path text }) :=
    run_task_replaceContent_eq_ok_iff.mpr ⟨hRegistered build hBuild, rfl⟩
  obtain ⟨r, hGet⟩ := Option.isSome_iff_exists.mp (hRegistered build hBuild)
  rw [hRun]
  refine ⟨?_, h build hBuild⟩
  simp only [Task.replaceContent, ExceptT.run_mk, runTrail, answerTrail, hGet, List.append_nil,
    List.mem_singleton, forall_eq]
  exact ⟨_, _, h build hBuild⟩

section

variable (hSub : Subordinate compile trail)
include hSub

/-- What is collected depends on what is compiled in the end. -/
theorem collectEdits {replacement : Planned → Resource → Text} {planned : List Planned}
    {r : Resource} (hStopped : stage ≠ .finished) :
    attempt.Leads compile trail
      (fun build => attempt.At stage told .compiling build ∧
        build.resources.get? attempt.path = some r)
      (AssetLoom.collectEdits attempt.path replacement planned)
      fun edits build => (attempt.At stage told .compiling build ∧
        build.resources.get? attempt.path = some r) ∧
        edits = passEdits replacement (View.resource build.resources.get?) planned ∧
        ∀ key ∈ planned.map Planned.key, View.Compiled build.resources.get? key := by
  rintro build ⟨hAt, hGet⟩
  obtain ⟨hTrail, hAloof, hKeeps⟩ := hSub.beside session
    (fun _ => Recipe.Spares.collectEdits attempt.path replacement planned) hAt.state?_eq
  refine ⟨fun point hPoint =>
    ⟨_, _, hAt.beside (hTrail point hPoint).1 (hTrail point hPoint).2⟩, ?_⟩
  have hLast := hAt.beside hAloof hKeeps
  have hSame := hAloof.get?_eq
  generalize hRun : session.run compile
    (AssetLoom.collectEdits attempt.path replacement planned).run build = answer at hLast hSame
  obtain ⟨answer, last⟩ := answer
  cases answer with
  | ok edits =>
    exact ⟨⟨hLast, hSame.trans hGet⟩, hSub.collectEdits_eq_ok hAt.state?_eq hRun⟩
  | error e => exact ⟨stage, told, hStopped, hLast⟩

theorem identityPass :
    attempt.Leads compile trail (attempt.At .untouched [.preCompile] .compiling)
      (AssetLoom.identityPass session.options attempt.path)
      fun _ => attempt.At .rewritten [.preCompile] .compiling := by
  refine (fetch fun build h => h.isSome_get?).bind fun r =>
    (collectEdits hSub (by decide)).bind fun edits => (countEdits ?_).bind fun _ => ?_
  · rintro build ⟨⟨hAt, -⟩, -⟩
    exact ⟨_, _, hAt.write id⟩
  · dsimp only
    split
    · next hChanged =>
      refine replaceContent ?_ ?_
      · rintro _ ⟨build, ⟨⟨hAt, -⟩, -⟩, rfl⟩
        exact hAt.isSome_get?
      · rintro _ ⟨build, ⟨⟨hAt, hGet⟩, hEdits, hFirst⟩, rfl⟩
        have hKeeps : Keeps build (build.write (.edits .identity attempt.path edits.length)) :=
          .of_resources rfl
        refine hAt.rewrite hGet hFirst (hKeeps.trans (.setContent ?_ _)) rfl ?_
        · simp [Build.write, hAt.state?_eq]
        · rw [identityContent_of_edits hEdits, if_neg hChanged, Registry.get?_setContent,
            if_pos rfl]
          simp [Build.write, hGet]
    · next hSame =>
      refine pure ?_
      rintro _ ⟨build, ⟨⟨hAt, hGet⟩, hEdits, hFirst⟩, rfl⟩
      refine hAt.rewrite hGet hFirst (.of_resources rfl) rfl ?_
      rw [identityContent_of_edits hEdits, if_pos (not_not.mp hSame)]
      exact hGet

theorem relativePass :
    attempt.Leads compile trail (attempt.At .located Event.order .compiling)
      (AssetLoom.relativePass attempt.path)
      fun _ => attempt.At .finished Event.order .compiling := by
  refine (fetch fun build h => h.isSome_get?).bind fun r =>
    (collectEdits hSub (by decide)).bind fun edits => ?_
  split
  · next hSome =>
    refine (countEdits ?_).bind fun _ => replaceContent ?_ ?_
    · rintro build ⟨⟨hAt, -⟩, -⟩
      exact ⟨_, _, hAt.write id⟩
    · rintro _ ⟨build, ⟨⟨hAt, -⟩, -⟩, rfl⟩
      exact hAt.isSome_get?
    · rintro _ ⟨build, ⟨⟨hAt, hGet⟩, hEdits, hSecond⟩, rfl⟩
      have hKeeps : Keeps build (build.write (.edits .relative attempt.path edits.length)) :=
        .of_resources rfl
      refine hAt.finish hGet hSecond (hKeeps.trans (.setContent ?_ _)) rfl
        (by simp [Entry.TellsOf]) (.inr ⟨edits.length, by simp⟩) ?_
      · simp [Build.write, hAt.state?_eq]
      · rw [relativeContent_of_edits hEdits, if_neg hSome, Registry.get?_setContent, if_pos rfl]
        simp [Build.write, hGet]
  · next hNothing =>
    refine pure ?_
    rintro build ⟨⟨hAt, hGet⟩, hEdits, hSecond⟩
    have hEmpty := not_not.mp hNothing
    refine hAt.finish hGet hSecond (.refl build) (List.append_nil _).symm (by simp) (.inl ?_) ?_
    · exact passEdits_eq_nil_iff.mp (hEdits.symm.trans hEmpty)
    · rw [relativeContent_of_edits hEdits, if_pos hEmpty]
      exact hGet

/-- The template goes through all its stages, as far as it comes. -/
theorem templateCompiler :
    attempt.Leads compile trail (attempt.At .untouched [] .compiling)
      (AssetLoom.templateCompiler session.options attempt.path attempt.rule)
      fun _ => attempt.At .finished Event.order .compiling := by
  have hPreCompile : attempt.Leads compile trail (attempt.At .untouched [] .compiling)
      (Task.emit .preCompile attempt.path)
      fun _ => attempt.At .untouched [.preCompile] .compiling :=
    emit rfl (by decide) (by decide)
  have hCompiled : attempt.Leads compile trail (attempt.At .rewritten [.preCompile] .compiling)
      (Task.emit .compiled attempt.path)
      fun _ => attempt.At .rewritten [.preCompile, .compiled] .compiling :=
    emit rfl (by decide) (by decide)
  refine hPreCompile.bind fun _ => (fetch fun build h => h.isSome_get?).bind fun r => ?_
  rintro build ⟨hAt, hGet⟩
  simp only [hAt.permanent hGet, Bool.not_false, if_true]
  refine ((identityPass hSub).bind fun _ => hCompiled.bind fun _ => ?_) build hAt
  exact resolveUri.bind fun _ => relativePass hSub

end

end Leads

end

end Attempt

open Build (Walk)

/-- Whatever fails in a compile of a template, in itself or in what it needs, and whatever the
observers do: at each single change the template is at one of its stages, and so it is when the
compile ends. It comes to its last stage if the compile succeeds, and is left at an earlier one
otherwise. The other compilers, not only the built-in ones, tend to their own resources. -/
theorem compile_stages {session : Session} (attempt : session.Attempt)
    (hOwn : ∀ kind, (session.compilers.forKind kind).TendsOwn) {outcome : Outcome} {last : Build}
    (hCompile : session.compile attempt.path attempt.rule attempt.start = (outcome, last)) :
    Walk attempt.start (session.compileTrail attempt.path attempt.rule attempt.start) last ∧
    ∃ passed, session.compileTrail attempt.path attempt.rule attempt.start = passed ++ [last] ∧
      (∀ point ∈ passed, ∃ stage told, attempt.At stage told .compiling point) ∧
      match outcome with
      | .ok _ => attempt.At .finished Event.order .compiled last
      | .error _ => ∃ stage told, stage ≠ .finished ∧ attempt.At stage told .pending last := by
  have hWalk := walk_compileTrailWithin session attempt.start.resources.size attempt.path
    attempt.rule attempt.start
  rw [← compile, hCompile] at hWalk
  refine ⟨hWalk, ?_⟩
  obtain ⟨depth, hDepth⟩ : ∃ depth, attempt.start.resources.size = depth + 1 :=
    Nat.exists_eq_succ_of_ne_zero (Nat.pos_iff_ne_zero.mp
      (List.length_pos_of_mem (Registry.get?_eq_some_iff.mp attempt.get).1))
  simp only [compile, hDepth, compileWithin, attempt.get, attempt.pending, attempt.compiler]
    at hCompile
  simp only [compileTrail, hDepth, compileTrailWithin, attempt.get, attempt.pending,
    attempt.compiler]
  obtain ⟨hTrail, hClosing⟩ :=
    Attempt.Leads.templateCompiler (subordinate_compileWithin hOwn depth) _
      (Attempt.at_enter (.refl _ _))
  generalize session.run (session.compileWithin depth)
    (templateCompiler session.options attempt.path attempt.rule).run
    (attempt.start.enter attempt.path attempt.template.kind) = answer at hCompile hClosing ⊢
  obtain ⟨reply, closing⟩ := answer
  obtain ⟨rfl, rfl⟩ := Prod.mk.inj hCompile
  refine ⟨_, rfl, List.forall_mem_cons.mpr ⟨⟨_, _, Attempt.at_enter (.refl _ _)⟩, hTrail⟩, ?_⟩
  cases reply with
  | ok => exact hClosing.leave (by decide) (.ok ())
  | error e =>
    obtain ⟨stage, told, hStage, hAt⟩ := hClosing
    exact ⟨stage, told, hStage, hAt.leave (by decide) (.error e)⟩

/-- A template that includes a missing one is left with its URI and the output of its first
pass. -/
theorem compile_stages_missing :
    let template : Resource :=
      { path := "page/a.tpl"
        kind := .template
        content := ("<img src=\"b.png\"/>\x7b\x7binclude file=\"c.tpl\"\x7d\x7d").toUTF8 }
    let start : Build := { resources :=
      { entries := [template, { path := "page/b.png", kind := .image, content := .empty }]
        paths_nodup := by decide } }
    let attempt : Attempt {} :=
      { path := "page/a.tpl", rule := none, start, template
        get := Registry.get?_eq_some_iff.mpr ⟨List.mem_cons_self, rfl⟩
        pending := rfl, permanent := rfl, compiler := rfl }
    let result := Session.compile {} "page/a.tpl" none start
    result.1 = .error (.unresolved "page/c.tpl" "page/a.tpl") ∧
      attempt.At .located Event.order .pending result.2 := by
  intro template start attempt result
  have hOutcome : result.1 = .error (.unresolved "page/c.tpl" "page/a.tpl") := by decide +kernel
  refine ⟨hOutcome, ?_⟩
  have hCompile : Session.compile {} attempt.path attempt.rule attempt.start =
      (.error (.unresolved "page/c.tpl" "page/a.tpl"), result.2) := Prod.ext hOutcome rfl
  obtain ⟨-, passed, -, -, hLast⟩ :=
    compile_stages attempt (fun kind => Compilers.builtIn_default.tendsOwn kind) hCompile
  obtain ⟨stage, told, hStage, hAt⟩ := hLast
  obtain ⟨entries, hEntries, hAccount⟩ := hAt.account
  have hTold : told = Event.order := by
    rw [← hAccount.told_eq, ← show result.2.journal = entries from hEntries]
    decide +kernel
  subst hTold
  have hThrough := hAt.through
  cases stage with
  | untouched => exact absurd hThrough (by decide)
  | rewritten => exact absurd hThrough (by decide)
  | located => exact hAt
  | finished => exact absurd rfl hStage

end Session

end AssetLoom
