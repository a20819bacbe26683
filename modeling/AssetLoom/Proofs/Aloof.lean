import AssetLoom.Proofs.Frozen
import AssetLoom.Proofs.Lifecycle

/-!
# What happens besides the compile of a resource

While a resource is being compiled, all that concerns it comes from its own recipe. The compiles
that the recipe asks for leave it as it is and emit no event of it (`Build.Aloof`), at every single
change, if each compiler tends to its own resource only (`aloof_compileTrailWithin`).

`Session.Subordinate` gathers what a recipe may rely on of a function that carries compiles out.
-/

namespace AssetLoom

/-- The entry tells of an event of the resource `q`. -/
def Entry.TellsOf (q : String) : Entry → Prop
  | .emitted _ path => path = q
  | .observed _ _ resource => resource.path = q
  | _ => False

theorem eventsOf_emissions_eq_nil {q : String} {entries : Journal}
    (h : ∀ entry ∈ entries, ¬ entry.TellsOf q) : eventsOf q entries.emissions = [] := by
  simp only [eventsOf, Journal.emissions, List.filterMap_eq_nil_iff, List.mem_filterMap]
  rintro ⟨event, path⟩ ⟨entry, hEntry, hEmission⟩
  cases entry <;> simp only [Entry.emission?, reduceCtorEq, Option.some.injEq, Prod.mk.injEq]
    at hEmission
  obtain ⟨rfl, rfl⟩ := hEmission
  exact if_neg (h _ hEntry)

namespace Build

/-- From one build to another, the resource `q` stays as it is and no event of it is told. -/
structure Aloof (q : String) (a b : Build) : Prop where
  get?_eq : b.resources.get? q = a.resources.get? q
  quiet : ∃ entries, b.journal = a.journal ++ entries ∧ ∀ entry ∈ entries, ¬ entry.TellsOf q

namespace Aloof

variable {q path : String} {a b c : Build}

theorem refl (q : String) (build : Build) : Aloof q build build :=
  ⟨rfl, [], (List.append_nil _).symm, by simp⟩

theorem trans (h : Aloof q a b) (h' : Aloof q b c) : Aloof q a c := by
  obtain ⟨entries, hEntries, hQuiet⟩ := h.quiet
  obtain ⟨more, hMore, hQuiet'⟩ := h'.quiet
  refine ⟨h'.get?_eq.trans h.get?_eq, entries ++ more, ?_, ?_⟩
  · rw [hMore, hEntries, List.append_assoc]
  · intro entry hEntry
    exact (List.mem_append.mp hEntry).elim (hQuiet entry) (hQuiet' entry)

theorem state?_eq (h : Aloof q a b) : b.resources.state? q = a.resources.state? q := by
  rw [Registry.state?, h.get?_eq, Registry.state?]

theorem write (h : Aloof q a b) {entry : Entry} (hEntry : ¬ entry.TellsOf q) :
    Aloof q a (b.write entry) :=
  h.trans ⟨rfl, [entry], rfl, by simpa using hEntry⟩

theorem setUri (h : Aloof q a b) (hq : q ≠ path) (uri : String) :
    Aloof q a { b with resources := b.resources.setUri path uri } :=
  h.trans ⟨by simp [Registry.get?_setUri, hq], (refl q b).quiet⟩

theorem setContent (h : Aloof q a b) (hq : q ≠ path) (text : Text) :
    Aloof q a { b with resources := b.resources.setContent path text } :=
  h.trans ⟨by simp [Registry.get?_setContent, hq], (refl q b).quiet⟩

theorem enter (h : Aloof q a b) (hq : q ≠ path) (kind : ResourceKind) :
    Aloof q a (b.enter path kind) :=
  h.trans ⟨by simp [Build.enter, Registry.get?_setState, hq], [_], rfl, by simp [Entry.TellsOf]⟩

theorem leave (h : Aloof q a b) (hq : q ≠ path) (outcome : Outcome) :
    Aloof q a (b.leave path outcome) :=
  h.trans ⟨by simp [Build.leave, Registry.get?_setState, hq], (refl q b).quiet⟩

end Aloof

/-- Whatever is pending in the end has been left alone. -/
def Steady (a b : Build) : Prop :=
  ∀ q, b.resources.state? q = some .pending → Aloof q a b

namespace Steady

theorem refl (build : Build) : Steady build build := fun q _ => .refl q build

theorem trans {a b c : Build} (h : Steady a b) (h' : Steady b c) : Steady a c := by
  intro q hPending
  have hLater := h' q hPending
  exact (h q (hLater.state?_eq ▸ hPending)).trans hLater

end Steady

theorem Walk.last_mem {a b : Build} {trail : List Build} (h : Walk a trail b) :
    b ∈ a :: trail := by
  induction h with
  | nil build => exact List.mem_cons_self
  | cons _ _ ih => exact List.mem_cons_of_mem _ ih

theorem Walk.aloof {q : String} {a b : Build} {trail : List Build} (h : Walk a trail b)
    (hTrail : ∀ point ∈ trail, Aloof q a point) : Aloof q a b := by
  rcases List.mem_cons.mp h.last_mem with rfl | hLast
  · exact .refl q b
  · exact hTrail b hLast

theorem Walk.keeps {a b : Build} {trail : List Build} (h : Walk a trail b)
    (hTrail : (a :: trail).Pairwise Keeps) : Keeps a b := by
  rcases List.mem_cons.mp h.last_mem with rfl | hLast
  · exact .refl b
  · exact (List.pairwise_cons.mp hTrail).1 b hLast

/-- One trail behind another. -/
theorem forall_aloof_append {q : String} {a b : Build} {first second : List Build}
    (hFirst : ∀ point ∈ first, Aloof q a point) (hMiddle : Aloof q a b)
    (hSecond : ∀ point ∈ second, Aloof q b point) :
    ∀ point ∈ first ++ second, Aloof q a point := by
  intro point hPoint
  rcases List.mem_append.mp hPoint with hPoint | hPoint
  · exact hFirst point hPoint
  · exact hMiddle.trans (hSecond point hPoint)

end Build

namespace Session

open Build (Walk Aloof Keeps Balanced)

variable {session : Session} {q : String}

/-! ## Events -/

/-- What holds of a build and stays true as observers are told of an event holds all the while. -/
theorem forall_notifyTrail {P : Build → Prop} {event : Event} {resource : Resource}
    (hStep : ∀ {point : Build} number, P point → P (point.write (.observed number event resource)))
    (number : Nat) (observers : List Observer) {build : Build} (h : P build) :
    ∀ point ∈ notifyTrail event resource number observers build, P point := by
  induction observers generalizing number build with
  | nil => simp [notifyTrail]
  | cons observer rest ih =>
    rw [notifyTrail]
    split
    · have hTold := hStep number h
      dsimp only
      split
      · simpa using hTold
      · exact List.forall_mem_cons.mpr ⟨hTold, ih _ hTold⟩
    · exact ih _ h

theorem forall_emitTrail {P : Build → Prop} {event : Event} {path : String} {build : Build}
    (hEmitted : P (build.write (.emitted event path)))
    (hStep : ∀ {point : Build} number resource, build.resources.get? path = some resource →
      P point → P (point.write (.observed number event resource))) :
    ∀ point ∈ session.emitTrail event path build, P point := by
  unfold emitTrail
  split
  · simp
  · next resource hGet =>
    dsimp only
    rw [Registry.path_of_get? hGet]
    exact List.forall_mem_cons.mpr
      ⟨hEmitted, forall_notifyTrail (fun number => hStep number resource hGet) _ _ hEmitted⟩

theorem aloof_emitTrail (session : Session) (event : Event) {path : String} (hq : q ≠ path)
    (build : Build) : ∀ point ∈ session.emitTrail event path build, Aloof q build point := by
  refine forall_emitTrail ((Aloof.refl q build).write (Ne.symm hq)) ?_
  intro point number resource hGet hPoint
  refine hPoint.write ?_
  rw [Entry.TellsOf, Registry.path_of_get? hGet]
  exact Ne.symm hq

theorem aloof_resolveTrail (session : Session) {path : String} (hq : q ≠ path)
    (rule : Option Rule) (build : Build) :
    ∀ point ∈ session.resolveTrail path rule build, Aloof q build point := by
  have hFirst := aloof_emitTrail session .preResolve hq build
  have hTold := (walk_emitTrail session .preResolve path build).aloof hFirst
  unfold resolveTrail
  refine Build.forall_aloof_append hFirst hTold ?_
  generalize session.emit .preResolve path build = answer
  obtain ⟨outcome, told⟩ := answer
  cases outcome with
  | error e => simp
  | ok =>
    cases uriBy rule path with
    | error e => simp
    | ok uri =>
      have hWritten : Aloof q told (told.write (.resolved path uri)) :=
        (Aloof.refl q told).write id
      have hSet := hWritten.setUri hq uri
      intro point hPoint
      rcases List.mem_cons.mp hPoint with rfl | hPoint
      · exact hWritten
      · rcases List.mem_cons.mp hPoint with rfl | hPoint
        · exact hSet
        · exact hSet.trans (aloof_emitTrail session .resolved hq _ point hPoint)

/-! ## Requests and recipes -/

section

variable {compile : String → Option Rule → Build → Outcome × Build}
  {trail : String → Option Rule → Build → List Build}

theorem runTrail_bind {α β : Type} (x : Recipe α) (f : α → Recipe β) (build : Build) :
    runTrail compile trail session (x >>= f) build =
      runTrail compile trail session x build ++ runTrail compile trail session
        (f (session.run compile x build).1) (session.run compile x build).2 := by
  induction x generalizing build with
  | done a => rfl
  | ask request next ih =>
    simp only [Recipe.ask_bind, runTrail, run, ih, List.append_assoc]

/-- A task in two parts passes what the first part does, and what the second one does if it comes
to that. -/
theorem runTrail_task_bind {α β : Type} (x : Task α) (f : α → Task β) (build : Build) :
    runTrail compile trail session (x >>= f).run build =
      runTrail compile trail session x.run build ++
        match session.run compile x.run build with
        | (.ok a, middle) => runTrail compile trail session (f a).run middle
        | (.error _, _) => [] := by
  rw [ExceptT.run_bind, runTrail_bind]
  obtain ⟨answer, middle⟩ := session.run compile x.run build
  cases answer <;> rfl

variable (hWalk : ∀ path rule build, Walk build (trail path rule build) (compile path rule build).2)
  (hAloof : ∀ path rule build, build.resources.state? q = some .compiling →
    ∀ point ∈ trail path rule build, Aloof q build point)
include hAloof

theorem aloof_requireTrail (session : Session) (referrer target : String) {build : Build}
    (hOpen : build.resources.state? q = some .compiling) :
    ∀ point ∈ requireTrail trail session referrer target build, Aloof q build point := by
  unfold requireTrail
  split
  · simp
  · split
    · simp
    · dsimp only
      split
      · simp
      · have hReached : Aloof q build (build.write (.reached referrer target)) :=
          (Aloof.refl q build).write id
        refine List.forall_mem_cons.mpr ⟨hReached, fun point hPoint => ?_⟩
        exact hReached.trans (hAloof _ _ _ (hReached.state?_eq.trans hOpen) point hPoint)

include hWalk

theorem aloof_eachTrail (session : Session) (paths : List String) {build : Build}
    (hOpen : build.resources.state? q = some .compiling) :
    ∀ point ∈ eachTrail compile trail session paths build, Aloof q build point := by
  induction paths generalizing build with
  | nil => simp [eachTrail]
  | cons path rest ih =>
    have hFirst := hAloof path (session.rules.find? path) build hOpen
    have hMiddle := (hWalk path (session.rules.find? path) build).aloof hFirst
    refine Build.forall_aloof_append hFirst hMiddle ?_
    generalize compile path (session.rules.find? path) build = answer at hMiddle
    obtain ⟨outcome, middle⟩ := answer
    cases outcome with
    | ok => exact ih (hMiddle.state?_eq.trans hOpen)
    | error e => simp

/-- A request that is not about a resource that is being compiled leaves this one alone. -/
theorem aloof_answerTrail (session : Session) {request : Request}
    (hSubject : request.subject? ≠ some q) {build : Build}
    (hOpen : build.resources.state? q = some .compiling) :
    ∀ point ∈ answerTrail compile trail session request build, Aloof q build point := by
  have hOther : ∀ {path : String}, request.subject? = some path → q ≠ path := by
    rintro path h rfl
    exact hSubject h
  cases request with
  | lookUp path => simp [answerTrail]
  | emit event path => exact aloof_emitTrail session event (hOther rfl) build
  | compile path rule => exact hAloof path rule build hOpen
  | compileRoot path => exact hAloof path _ build hOpen
  | compileAll =>
    have hStarted : Aloof q build (build.write (.roots (templatePaths build.resources).length)) :=
      (Aloof.refl q build).write id
    refine List.forall_mem_cons.mpr ⟨hStarted, fun point hPoint => ?_⟩
    exact hStarted.trans (aloof_eachTrail hWalk hAloof session _
      (hStarted.state?_eq.trans hOpen) point hPoint)
  | require referrer target => exact aloof_requireTrail hAloof session referrer target hOpen
  | resolveUri path rule => exact aloof_resolveTrail session (hOther rfl) rule build
  | replaceContent path text =>
    simp only [answerTrail]
    split
    · simp
    · simpa using (Aloof.refl q build).setContent (hOther rfl) text
  | countEdits pass path count =>
    have hCounted : Aloof q build (build.write (.edits pass path count)) :=
      (Aloof.refl q build).write id
    simpa [answerTrail] using hCounted

theorem aloof_runTrail {α : Type} (session : Session) {recipe : Recipe α}
    (hSpares : recipe.Spares q) {build : Build}
    (hOpen : build.resources.state? q = some .compiling) :
    ∀ point ∈ runTrail compile trail session recipe build, Aloof q build point := by
  induction recipe generalizing build with
  | done result => simp [runTrail]
  | ask request next ih =>
    have hFirst := aloof_answerTrail hWalk hAloof session hSpares.1 hOpen
    have hMiddle := (walk_answerTrail hWalk session request build).aloof hFirst
    refine Build.forall_aloof_append hFirst hMiddle ?_
    exact ih _ (hSpares.2 _) (hMiddle.state?_eq.trans hOpen)

end

/-- All along a compile, a resource that is being compiled already is left alone. -/
theorem aloof_compileTrailWithin (hOwn : ∀ kind, (session.compilers.forKind kind).TendsOwn)
    (depth : Nat) (path : String) (rule : Option Rule) {build : Build}
    (hOpen : build.resources.state? q = some .compiling) :
    ∀ point ∈ session.compileTrailWithin depth path rule build, Aloof q build point := by
  induction depth generalizing path rule build with
  | zero =>
    simp only [compileTrailWithin]
    repeat' split
    all_goals simp
  | succ depth ih =>
    simp only [compileTrailWithin]
    split
    · simp
    · next resource hGet =>
      split
      · simp
      · simp
      · next hPending =>
        have hq : q ≠ path := by
          rintro rfl
          rw [Registry.state?_eq_some_iff.mpr ⟨resource, hGet, hPending⟩] at hOpen
          cases hOpen
        have hWalk := fun path rule build => walk_compileTrailWithin session depth path rule build
        have hEnter := (Aloof.refl q build).enter hq resource.kind
        have hRun := aloof_runTrail hWalk (fun path rule build => ih path rule) session
          (hOwn resource.kind session.options path rule q hq) (hEnter.state?_eq.trans hOpen)
        have hClosing := hEnter.trans ((walk_runTrail hWalk session _ _).aloof hRun)
        refine Build.forall_aloof_append ?_ hClosing ?_
        · refine List.forall_mem_cons.mpr ⟨hEnter, fun point hPoint => ?_⟩
          exact hEnter.trans (hRun point hPoint)
        · simpa using (Aloof.refl q _).leave hq _

/-! ## Functions that carry compiles out -/

/-- A function that carries compiles out leaves alone what is being compiled when it is called, and
what is compiled. What it compiles without a failure is compiled then. -/
structure Subordinate (compile : String → Option Rule → Build → Outcome × Build)
    (trail : String → Option Rule → Build → List Build) : Prop where
  walk : ∀ path rule build, Walk build (trail path rule build) (compile path rule build).2
  balanced : ∀ path rule build, Balanced build (compile path rule build).2
  keeps : ∀ path rule build, (build :: trail path rule build).Pairwise Keeps
  aloof : ∀ q path rule build, build.resources.state? q = some .compiling →
    ∀ point ∈ trail path rule build, Aloof q build point
  compiled : ∀ path rule build, (compile path rule build).1 = .ok () →
    (compile path rule build).2.resources.state? path = some .compiled

/-- What a recipe that does nothing but ask for compiles does besides the compile of the open
resource `q`. -/
theorem Subordinate.beside {compile : String → Option Rule → Build → Outcome × Build}
    {trail : String → Option Rule → Build → List Build} (h : Subordinate compile trail)
    (session : Session) {α : Type} {recipe : Recipe α} (hSpares : ∀ p, recipe.Spares p)
    {build : Build} (hOpen : build.resources.state? q = some .compiling) :
    (∀ point ∈ runTrail compile trail session recipe build,
      Aloof q build point ∧ Keeps build point) ∧
    Aloof q build (session.run compile recipe build).2 ∧
    Keeps build (session.run compile recipe build).2 := by
  have hWrites : recipe.WritesOnly q := Recipe.writesOnly_of_spares fun p _ => hSpares p
  have hAloof := aloof_runTrail h.walk (h.aloof q) session (hSpares q) hOpen
  have hKeeps := pairwise_runTrail h.walk h.keeps session h.balanced hWrites hOpen
  have hWalk := walk_runTrail h.walk session recipe build
  refine ⟨fun point hPoint => ⟨hAloof point hPoint, ?_⟩, hWalk.aloof hAloof, hWalk.keeps hKeeps⟩
  exact (List.pairwise_cons.mp hKeeps).1 point hPoint

/-- To collect edits leaves the template that they are collected for alone. -/
theorem Subordinate.beside_collectEdits {compile : String → Option Rule → Build → Outcome × Build}
    {trail : String → Option Rule → Build → List Build} (h : Subordinate compile trail)
    {replacement : Planned → Resource → Text} {planned : List Planned} {build last : Build}
    {answer : Except CompileError (List Edit)}
    (hOpen : build.resources.state? q = some .compiling)
    (hRun : session.run compile (collectEdits q replacement planned).run build = (answer, last)) :
    Aloof q build last ∧ Keeps build last := by
  have hBeside := (h.beside session (fun _ => .collectEdits q replacement planned) hOpen).2
  rwa [hRun] at hBeside

theorem compileWithin_compiled (session : Session) {depth : Nat} {path : String}
    {rule : Option Rule} {build : Build}
    (h : (session.compileWithin depth path rule build).1 = .ok ()) :
    (session.compileWithin depth path rule build).2.resources.state? path = some .compiled := by
  generalize hLast : (session.compileWithin depth path rule build).2 = last
  rcases compileWithin_eq_ok (Prod.ext h hLast) with ⟨r, hGet, hState, rfl⟩ |
    ⟨inner, r, closing, rfl, hGet, hPending, hRun, rfl⟩
  · exact Registry.state?_eq_some_iff.mpr ⟨r, hGet, hState⟩
  · have hBalanced := run_frame Build.balanced_isFrame
      (compileWithin_frame Build.balanced_isFrame session inner) session
      (session.compilers.forKind r.kind session.options path rule).run (build.enter path r.kind)
    rw [hRun] at hBalanced
    have hOpen := Build.state?_enter_self (Registry.state?_eq_some_iff.mpr ⟨r, hGet, hPending⟩)
      r.kind
    rw [Build.state?_leave, if_pos rfl, (hBalanced.compiling_iff path).mpr hOpen]
    rfl

theorem subordinate_compileWithin (hOwn : ∀ kind, (session.compilers.forKind kind).TendsOwn)
    (depth : Nat) :
    Subordinate (session.compileWithin depth) (session.compileTrailWithin depth) where
  walk := walk_compileTrailWithin session depth
  balanced := compileWithin_frame Build.balanced_isFrame session depth
  keeps := pairwise_compileTrailWithin (fun kind => (hOwn kind).writesOwn) depth
  aloof _ path rule _ := aloof_compileTrailWithin hOwn depth path rule
  compiled _ _ _ := session.compileWithin_compiled

theorem subordinate_compile (hOwn : ∀ kind, (session.compilers.forKind kind).TendsOwn) :
    Subordinate session.compile session.compileTrail where
  walk path rule build := walk_compileTrailWithin session _ path rule build
  balanced := compile_frame Build.balanced_isFrame session
  keeps path rule build :=
    pairwise_compileTrailWithin (fun kind => (hOwn kind).writesOwn) _ path rule build
  aloof _ path rule _ := aloof_compileTrailWithin hOwn _ path rule
  compiled _ _ _ := session.compileWithin_compiled

/-! ## Recipes of the built-in compilers -/

section

variable {compile : String → Option Rule → Build → Outcome × Build} {path : String} {build : Build}

theorem aloof_answer {request : Request} (hOwn : request.Own path) (hq : q ≠ path)
    (hRequire : ∀ key, request = .require path key →
      Aloof q build (session.requireBy compile path key build).2) :
    Aloof q build (session.answer compile request build).2 := by
  cases hOwn with
  | lookUp key => exact .refl q build
  | emit event => exact (walk_emitTrail session event path build).aloof (aloof_emitTrail _ _ hq _)
  | require key => exact hRequire key rfl
  | resolveUri rule =>
    exact (walk_resolveTrail session path rule build).aloof (aloof_resolveTrail _ hq _ _)
  | replaceContent text =>
    simp only [answer, replaceContent]
    split
    · exact .refl q build
    · exact (Aloof.refl q build).setContent hq text
  | countEdits pass count => exact (Aloof.refl q build).write id

theorem aloof_run {α : Type} {recipe : Recipe (Except CompileError α)}
    (hOrderly : recipe.Orderly path) (hq : q ≠ path)
    (hRequire : ∀ key build, Aloof q build (session.requireBy compile path key build).2) :
    Aloof q build (session.run compile recipe build).2 := by
  induction recipe generalizing build with
  | done result => exact .refl q build
  | ask request next ih =>
    refine (aloof_answer hOrderly.1 hq fun key _ => hRequire key build).trans ?_
    simp only [run]
    cases hFailure : request.failure? (session.answer compile request build).1 with
    | none => exact ih _ ((hOrderly.2 _).2 hFailure)
    | some e =>
      rw [(hOrderly.2 _).1 e hFailure]
      exact .refl q _

theorem steady_require {key : String} {last : Build}
    (hSteady : ∀ rule build last, compile key rule build = (.ok (), last) →
      Build.Steady build last)
    (h : session.requireBy compile path key build = (.ok (), last)) : Build.Steady build last := by
  rcases requireBy_eq_ok h with ⟨r, -, -, rfl⟩ | hLast
  · exact .refl _
  · have hReached : Build.Steady build (build.write (.reached path key)) :=
      fun q _ => (Aloof.refl q build).write id
    exact hReached.trans (hSteady _ _ _ hLast)

theorem steady_run {α : Type} {recipe : Recipe (Except CompileError α)}
    (hOrderly : recipe.Orderly path)
    (hBalanced : ∀ path rule build, Balanced build (compile path rule build).2)
    (hSteady : ∀ key rule build last, compile key rule build = (.ok (), last) →
      Build.Steady build last)
    (hOpen : build.resources.state? path = some .compiling) {a : α} {last : Build}
    (h : session.run compile recipe build = (.ok a, last)) : Build.Steady build last := by
  induction recipe generalizing build with
  | done result =>
    obtain ⟨-, rfl⟩ := Prod.mk.inj h
    exact .refl _
  | ask request next ih =>
    have hFrame := answer_frame Build.balanced_isFrame hBalanced session request build
    simp only [run] at h
    cases hFailure : request.failure? (session.answer compile request build).1 with
    | some e =>
      rw [(hOrderly.2 _).1 e hFailure] at h
      cases h
    | none =>
      have hStill := (hFrame.compiling_iff path).mpr hOpen
      refine .trans ?_ (ih _ ((hOrderly.2 _).2 hFailure) hStill h)
      intro q hPending
      have hq : q ≠ path := by
        rintro rfl
        rw [hStill] at hPending
        cases hPending
      refine aloof_answer hOrderly.1 hq ?_
      rintro key rfl
      have hOk : session.requireBy compile path key build =
          (.ok (), (session.requireBy compile path key build).2) := by
        refine Prod.ext ?_ rfl
        change failureOf (session.requireBy compile path key build).1 = none at hFailure
        cases hOutcome : (session.requireBy compile path key build).1 with
        | ok => rfl
        | error e =>
          rw [hOutcome] at hFailure
          cases hFailure
      exact steady_require (hSteady key) hOk q hPending

end

theorem steady_compileWithin (hBuiltIn : session.compilers.BuiltIn) {depth : Nat} {path : String}
    {rule : Option Rule} {build last : Build}
    (h : session.compileWithin depth path rule build = (.ok (), last)) :
    Build.Steady build last := by
  induction depth using Nat.strongRecOn generalizing path rule build last with
  | ind depth ih =>
    rcases compileWithin_eq_ok h with ⟨r, -, -, rfl⟩ |
      ⟨inner, r, closing, rfl, hGet, hPending, hRun, rfl⟩
    · exact .refl _
    · have hBalanced := compileWithin_frame Build.balanced_isFrame session inner
      have hOpen := Build.state?_enter_self
        (Registry.state?_eq_some_iff.mpr ⟨r, hGet, hPending⟩) r.kind
      have hInner := steady_run (hBuiltIn.orderly r.kind session.options path rule) hBalanced
        (fun key rule build last => ih inner (Nat.lt_succ_self inner)) hOpen hRun
      have hFrame := run_frame Build.balanced_isFrame hBalanced session
        (session.compilers.forKind r.kind session.options path rule).run
        (build.enter path r.kind)
      rw [hRun] at hFrame
      intro q hStill
      have hq : q ≠ path := by
        rintro rfl
        rw [Build.state?_leave, if_pos rfl, (hFrame.compiling_iff q).mpr hOpen] at hStill
        cases hStill
      rw [Build.state?_leave, if_neg hq] at hStill
      exact (((Aloof.refl q build).enter hq r.kind).trans (hInner q hStill)).leave hq (.ok ())

/-- No compile of another resource touches one for which there is no destination: before it would
be compiled, this is found. -/
theorem aloof_compileWithin_of_destination (hBuiltIn : session.compilers.BuiltIn) {e : CompileError}
    (hTarget : ((session.rules.find? q).map Rule.destination).getD (.ok none) = .error e)
    (depth : Nat) {path : String} (hq : q ≠ path) (rule : Option Rule) (build : Build) :
    Aloof q build (session.compileWithin depth path rule build).2 := by
  induction depth generalizing path rule build with
  | zero =>
    simp only [compileWithin]
    repeat' split
    all_goals exact .refl q build
  | succ depth ih =>
    have hRequire : ∀ key build, Aloof q build
        (session.requireBy (session.compileWithin depth) path key build).2 := by
      intro key build
      unfold requireBy
      split
      · exact .refl q build
      · split
        · exact .refl q build
        · dsimp only
          split
          · exact .refl q build
          · next found hFound =>
            have hKey : q ≠ key := by
              rintro rfl
              rw [hTarget] at hFound
              cases hFound
            have hReached : Aloof q build (build.write (.reached path key)) :=
              (Aloof.refl q build).write id
            exact hReached.trans (ih hKey _ _)
    simp only [compileWithin]
    split
    · exact .refl q build
    · next r hGet =>
      split
      · exact .refl q build
      · exact .refl q build
      · exact ((((Aloof.refl q build).enter hq r.kind).trans
          (aloof_run (hBuiltIn.orderly r.kind session.options path rule) hq hRequire))).leave hq _

end Session

end AssetLoom
