import AssetLoom.Proofs.Rewrite
import AssetLoom.Proofs.Run

/-!
# The events of one resource

Of each resource a compile emits either no event or all four of them in their order; a compile
that fails may stop within them (`stretches_compile`). So no resource is ever compiled twice.

A compile is followed task by task (`Recounts`). While a resource is being compiled, its own events
come from its own recipe. Those of any other resource come from the compiles that the recipe asks
for, and are those of a `Stretch`.
-/

namespace AssetLoom

/-- The events of one resource. -/
def eventsOf (path : String) (events : List (Event × String)) : List Event :=
  events.filterMap fun (event, p) => if p = path then some event else none

@[simp]
theorem eventsOf_nil (path : String) : eventsOf path [] = [] := rfl

@[simp]
theorem eventsOf_append (path : String) (events others : List (Event × String)) :
    eventsOf path (events ++ others) = eventsOf path events ++ eventsOf path others :=
  List.filterMap_append

@[simp]
theorem eventsOf_cons (path p : String) (event : Event) (events : List (Event × String)) :
    eventsOf path ((event, p) :: events) =
      if p = path then event :: eventsOf path events else eventsOf path events := by
  by_cases h : p = path <;> simp [eventsOf, h]

namespace Build

/-- The events that are emitted from one build to another. -/
def Emits (a : Build) (events : List (Event × String)) (b : Build) : Prop :=
  b.journal.emissions = a.journal.emissions ++ events

variable {a b c : Build} {events others : List (Event × String)}

theorem Emits.refl (build : Build) : Emits build [] build := (List.append_nil _).symm

theorem Emits.trans (h : Emits a events b) (h' : Emits b others c) :
    Emits a (events ++ others) c := by
  unfold Emits at *
  rw [h', h, List.append_assoc]

theorem emits_write (build : Build) {entry : Entry} (h : entry.emission? = none) :
    Emits build [] (build.write entry) := by
  simp [Emits, write, Journal.emissions, h]

theorem emits_enter (build : Build) (path : String) (kind : ResourceKind) :
    Emits build [] (build.enter path kind) := by
  simp [Emits, enter, Journal.emissions, Entry.emission?]

theorem emits_leave (build : Build) (path : String) (outcome : Outcome) :
    Emits build [] (build.leave path outcome) :=
  .refl build

theorem emits_emitted (build : Build) (event : Event) (path : String) :
    Emits build [(event, path)] (build.write (.emitted event path)) := by
  simp [Emits, write, Journal.emissions, Entry.emission?]

end Build

namespace Session

open Build (Emits)

variable {session : Session} {compile : String → Option Rule → Build → Outcome × Build}
  {α β : Type}

theorem emits_notify (event : Event) (resource : Resource) (number : Nat)
    (observers : List Observer) (build : Build) :
    Emits build [] (notify event resource number observers build).2 := by
  induction observers generalizing number build with
  | nil => exact .refl build
  | cons observer rest ih =>
    have hTold : Emits build [] (build.write (.observed number event resource)) :=
      Build.emits_write build rfl
    unfold notify
    split
    · dsimp only
      split
      · exact hTold
      · exact hTold.trans (ih _ _)
    · exact ih _ _

/-- An event is emitted whether an observer fails or not. -/
theorem emits_emit (session : Session) {path : String} {build : Build}
    (hGet : (build.resources.get? path).isSome) (event : Event) :
    Emits build [(event, path)] (session.emit event path build).2 := by
  obtain ⟨resource, hResource⟩ := Option.isSome_iff_exists.mp hGet
  simp only [emit, hResource, Registry.path_of_get? hResource]
  exact (Build.emits_emitted build event path).trans (emits_notify ..)

theorem emits_replaceContent (path : String) (text : Text) (build : Build) :
    Emits build [] (replaceContent path text build).2 := by
  unfold replaceContent
  split
  · exact .refl build
  · exact .refl build

/-! ## Stretches of a build -/

/-- The events of one resource from a build to a later one: if all goes well, there are none and
nothing happens to it, or it is compiled. A failure comes before the last one of them. -/
def Stretch {ε : Type} (result : Except ε α) (before after : Option CompileState)
    (told : List Event) : Prop :=
  match result with
  | .ok _ => told = [] ∧ after = before ∨
      told = Event.order ∧ before = some .pending ∧ after = some .compiled
  | .error _ => told <+: Event.order ∧ (told ≠ [] → before = some .pending)

namespace Stretch

variable {ε : Type} {result : Except ε α} {result' : Except ε β}
  {before middle after : Option CompileState} {told later : List Event}

theorem none (result : Except ε α) (before : Option CompileState) :
    Stretch result before before [] := by
  cases result with
  | ok a => exact .inl ⟨rfl, rfl⟩
  | error e => exact ⟨List.nil_prefix, fun h => absurd rfl h⟩

theorem append {a : α} (h : Stretch (.ok a : Except ε α) before middle told)
    (h' : Stretch result' middle after later) : Stretch result' before after (told ++ later) := by
  rcases h with ⟨rfl, rfl⟩ | ⟨rfl, rfl, rfl⟩
  · exact h'
  · cases result' with
    | ok b =>
      rcases h' with ⟨rfl, rfl⟩ | ⟨-, hPending, -⟩
      · exact .inr ⟨rfl, rfl, rfl⟩
      · cases hPending
    | error e =>
      have hNone : later = [] := by
        by_contra hSome
        cases h'.2 hSome
      subst hNone
      exact ⟨by simp, fun _ => rfl⟩

theorem isPrefix (h : Stretch result before after told) : told <+: Event.order := by
  cases result with
  | ok a =>
    rcases h with ⟨rfl, -⟩ | ⟨rfl, -, -⟩
    · exact List.nil_prefix
    · exact List.prefix_refl _
  | error e => exact h.1

end Stretch

/-- From one build to another one it is a stretch for every resource. -/
def Stretches (result : Except CompileError α) (a b : Build) : Prop :=
  ∃ events, Emits a events b ∧ ∀ q, Stretch result (a.resources.state? q)
    (b.resources.state? q) (eventsOf q events)

theorem Stretches.refl (result : Except CompileError α) (build : Build) :
    Stretches result build build :=
  ⟨[], .refl build, fun _ => .none result _⟩

/-! ## Tasks of a resource that is being compiled -/

/-- From one build to another one, while the resource `path` is being compiled: the given events of
it are emitted, or the first of them in case of a failure. For any other resource it is a
stretch. -/
def Recount (path : String) (own : List Event) (result : Except CompileError α)
    (a b : Build) : Prop :=
  ∃ events, Emits a events b ∧
    (∀ q ≠ path, Stretch result (a.resources.state? q) (b.resources.state? q)
      (eventsOf q events)) ∧
    match result with
    | .ok _ => eventsOf path events = own ∧ b.resources.state? path = some .compiling
    | .error _ => eventsOf path events <+: own

namespace Recount

variable {path : String} {own own' : List Event} {a b c : Build} {x : α} {e : CompileError}

/-- A resource that is not the open one stays as it is, and nothing is emitted. -/
theorem silent (result : Except CompileError α) (hOpen : a.resources.state? path = some .compiling)
    (hEmits : Emits a [] b) (hStates : ∀ q, b.resources.state? q = a.resources.state? q) :
    Recount path [] result a b := by
  refine ⟨[], hEmits, ?_, ?_⟩
  · intro q _
    rw [hStates q]
    exact .none result _
  · cases result with
    | ok x => exact ⟨rfl, (hStates path).trans hOpen⟩
    | error e => exact List.nil_prefix

/-- What is being compiled is not pending, so no stretch emits anything of it. -/
theorem of_stretches {result : Except CompileError α}
    (hOpen : a.resources.state? path = some .compiling) (h : Stretches result a b) :
    Recount path [] result a b := by
  obtain ⟨events, hEmits, hStretch⟩ := h
  refine ⟨events, hEmits, fun q _ => hStretch q, ?_⟩
  have hOwn := hStretch path
  rw [hOpen] at hOwn
  cases result with
  | ok x =>
    rcases hOwn with hNone | ⟨-, hPending, -⟩
    · exact hNone
    · cases hPending
  | error e =>
    rw [List.prefix_nil]
    by_contra hSome
    cases hOwn.2 hSome

theorem isOpen (h : Recount path own (.ok x) a b) :
    b.resources.state? path = some .compiling := by
  obtain ⟨events, -, -, -, hOpen⟩ := h
  exact hOpen

theorem append {result : Except CompileError β} (h : Recount path own (.ok x) a b)
    (h' : Recount path own' result b c) : Recount path (own ++ own') result a c := by
  obtain ⟨events, hEmits, hOther, hTold, -⟩ := h
  obtain ⟨later, hLater, hOther', hOwn'⟩ := h'
  refine ⟨events ++ later, hEmits.trans hLater, ?_, ?_⟩
  · intro q hq
    rw [eventsOf_append]
    exact (hOther q hq).append (hOther' q hq)
  · rw [eventsOf_append, hTold]
    cases result with
    | ok y => exact ⟨by rw [hOwn'.1], hOwn'.2⟩
    | error e => exact (List.prefix_append_right_inj own).mpr hOwn'

/-- After a failure nothing is emitted any more. -/
theorem failed (h : Recount path own (.error e : Except CompileError α) a b) :
    Recount path (own ++ own') (.error e : Except CompileError β) a b := by
  obtain ⟨events, hEmits, hOther, hOwn⟩ := h
  exact ⟨events, hEmits, hOther, hOwn.trans (List.prefix_append ..)⟩

theorem emit (session : Session) (hOpen : a.resources.state? path = some .compiling)
    (event : Event) :
    Recount path [event] (session.emit event path a).1 a (session.emit event path a).2 := by
  obtain ⟨r, hGet, -⟩ := Registry.state?_eq_some_iff.mp hOpen
  have hEmits := emits_emit session (Option.isSome_iff_exists.mpr ⟨r, hGet⟩) event
  have hSame := emit_resources session event path a
  refine ⟨_, hEmits, ?_, ?_⟩
  · intro q hq
    rw [hSame, eventsOf_cons, if_neg hq.symm]
    exact .none _ _
  · rw [hSame, hOpen, eventsOf_cons, if_pos rfl]
    cases (session.emit event path a).1 with
    | ok _ => exact ⟨rfl, rfl⟩
    | error e => exact List.prefix_refl _

end Recount

variable (session compile) in
/-- While the resource `path` is being compiled, a task emits the given events of it. -/
def Recounts (path : String) (x : Task α) (own : List Event) : Prop :=
  ∀ build, build.resources.state? path = some .compiling →
    Recount path own (session.run compile x.run build).1 build
      (session.run compile x.run build).2

namespace Recounts

variable {path : String} {x : Task α} {f : α → Task β} {own own' : List Event}

theorem bind (hx : Recounts session compile path x own)
    (hf : ∀ a, Recounts session compile path (f a) own') :
    Recounts session compile path (x >>= f) (own ++ own') := by
  intro build hOpen
  have hFirst := hx build hOpen
  rw [ExceptT.run_bind, run_bind]
  generalize session.run compile x.run build = answer at hFirst ⊢
  obtain ⟨first, middle⟩ := answer
  cases first with
  | ok a => exact hFirst.append (hf a middle hFirst.isOpen)
  | error e => exact hFirst.failed

theorem pure (a : α) : Recounts session compile path (Pure.pure a : Task α) [] :=
  fun build hOpen => .silent _ hOpen (.refl build) fun _ => rfl

theorem fetch (key : String) : Recounts session compile path (Task.fetch key) [] := by
  intro build hOpen
  simp only [Task.fetch, ExceptT.run_mk, run, answer]
  cases build.resources.get? key with
  | none => exact .silent _ hOpen (.refl build) fun _ => rfl
  | some r => exact .silent _ hOpen (.refl build) fun _ => rfl

theorem countEdits (pass : Pass) (key : String) (count : Nat) :
    Recounts session compile path (Task.countEdits pass key count) [] :=
  fun build hOpen => .silent _ hOpen (Build.emits_write build rfl) fun _ => rfl

theorem replaceContent (key : String) (text : Text) :
    Recounts session compile path (Task.replaceContent key text) [] := by
  intro build hOpen
  refine .silent _ hOpen (emits_replaceContent key text build) fun q => ?_
  change (Session.replaceContent key text build).2.resources.state? q = _
  unfold Session.replaceContent
  split
  · rfl
  · simp

theorem emit (event : Event) : Recounts session compile path (Task.emit event path) [event] :=
  fun _ hOpen => .emit session hOpen event

theorem resolveUri (rule : Option Rule) :
    Recounts session compile path (Task.resolveUri path rule) [.preResolve, .resolved] := by
  intro build hOpen
  have hFirst := Recount.emit session hOpen .preResolve
  rw [run_task_resolveUri, Session.resolveUri]
  generalize session.emit .preResolve path build = answer at hFirst ⊢
  obtain ⟨outcome, told⟩ := answer
  cases outcome with
  | error e => exact hFirst.failed
  | ok =>
    have hTold := hFirst.isOpen
    cases uriBy rule path with
    | error e =>
      have hStop : Recount path [] (.error e : Outcome) told told :=
        .silent _ hTold (.refl told) fun _ => rfl
      exact (hFirst.append hStop).failed
    | ok uri =>
      have hSet : Recount path [] (.ok () : Outcome) told { told.write (.resolved path uri) with
          resources := told.resources.setUri path uri } :=
        .silent _ hTold (Build.emits_write told rfl) (by simp)
      exact hFirst.append (hSet.append (.emit session hSet.isOpen .resolved))

section

variable (hCompile : ∀ path rule build,
  Stretches (compile path rule build).1 build (compile path rule build).2)
include hCompile

theorem require (referrer key : String) :
    Recounts session compile path (Task.require referrer key) [] := by
  intro build hOpen
  refine .of_stretches hOpen ?_
  rw [run_task_require, Session.requireBy]
  split
  · exact .refl _ build
  · split
    · exact .refl _ build
    · dsimp only
      split
      · exact .refl _ build
      · obtain ⟨events, hEmits, hStretch⟩ := hCompile key (session.rules.find? key)
          (build.write (.reached referrer key))
        exact ⟨events, (Build.emits_write build rfl).trans hEmits, hStretch⟩

theorem collectEdits (replacement : Planned → Resource → Text) (planned : List Planned) :
    Recounts session compile path (AssetLoom.collectEdits path replacement planned) [] := by
  induction planned with
  | nil => exact .pure []
  | cons p planned ih =>
    refine bind (require hCompile path p.key) fun _ => ?_
    exact bind (fetch p.key) fun r => bind ih fun edits => .pure _

theorem identityPass (options : CompileOptions) :
    Recounts session compile path (AssetLoom.identityPass options path) [] := by
  refine bind (fetch path) fun r => ?_
  refine bind (collectEdits hCompile _ _) fun edits => ?_
  refine bind (countEdits _ _ _) fun _ => ?_
  dsimp only
  split
  · exact replaceContent _ _
  · exact .pure ()

theorem relativePass : Recounts session compile path (AssetLoom.relativePass path) [] := by
  refine bind (fetch path) fun r => ?_
  refine bind (collectEdits hCompile _ _) fun edits => ?_
  split
  · exact bind (countEdits _ _ _) fun _ => replaceContent _ _
  · exact .pure ()

theorem templateCompiler (options : CompileOptions) (rule : Option Rule) :
    Recounts session compile path (AssetLoom.templateCompiler options path rule) Event.order := by
  refine bind (emit .preCompile) fun _ => bind (fetch path) fun r => ?_
  cases r.permanent with
  | true =>
    refine bind (emit .compiled) fun _ => ?_
    exact bind (resolveUri rule) fun _ => .pure ()
  | false =>
    refine bind (identityPass hCompile options) fun _ => bind (emit .compiled) fun _ => ?_
    exact bind (resolveUri rule) fun _ => relativePass hCompile

omit hCompile in
theorem assetCompiler (options : CompileOptions) (rule : Option Rule) :
    Recounts session compile path (AssetLoom.assetCompiler options path rule) Event.order :=
  bind (emit .preCompile) fun _ => bind (emit .compiled) fun _ => resolveUri rule

theorem forKind (hBuiltIn : session.compilers.BuiltIn) (kind : ResourceKind)
    (options : CompileOptions) (rule : Option Rule) :
    Recounts session compile path (session.compilers.forKind kind options path rule)
      Event.order := by
  rcases hBuiltIn kind with hKind | hKind <;> rw [hKind]
  · exact templateCompiler hCompile options rule
  · exact assetCompiler options rule

end

end Recounts

/-! ## Compiles -/

/-- A compile that is opened and closed is a stretch. -/
theorem Recount.nest {path : String} {kind : ResourceKind} {build last : Build} {outcome : Outcome}
    (hPending : build.resources.state? path = some .pending)
    (h : Recount path Event.order outcome (build.enter path kind) last) :
    Stretches outcome build (last.leave path outcome) := by
  obtain ⟨events, hEmits, hOther, hOwn⟩ := h
  refine ⟨events, (Build.emits_enter build path kind).trans hEmits, ?_⟩
  intro q
  rw [Build.state?_leave]
  by_cases hq : q = path
  · subst hq
    rw [if_pos rfl, hPending]
    cases outcome with
    | ok _ => exact .inr ⟨hOwn.1, rfl, by rw [hOwn.2]; rfl⟩
    | error e => exact ⟨hOwn, fun _ => rfl⟩
  · have hStretch := hOther q hq
    rw [Build.state?_enter, if_neg hq] at hStretch
    rwa [if_neg hq]

theorem stretches_compileWithin (hBuiltIn : session.compilers.BuiltIn) (depth : Nat)
    (path : String) (rule : Option Rule) (build : Build) :
    Stretches (session.compileWithin depth path rule build).1 build
      (session.compileWithin depth path rule build).2 := by
  induction depth generalizing path rule build with
  | zero =>
    simp only [compileWithin]
    repeat' split
    all_goals exact .refl _ build
  | succ depth ih =>
    simp only [compileWithin]
    split
    · exact .refl _ build
    · next resource hResource =>
      split
      · exact .refl _ build
      · exact .refl _ build
      · next hState =>
        have hPending := Registry.state?_eq_some_iff.mpr ⟨resource, hResource, hState⟩
        have hOpen := Build.state?_enter_self hPending resource.kind
        exact (Recounts.forKind ih hBuiltIn resource.kind session.options rule _ hOpen).nest
          hPending

/-- A compile emits of each resource either nothing or all four events, the latter exactly if it
compiles it; if it fails, it may have emitted the first ones of them. -/
theorem stretches_compile (hBuiltIn : session.compilers.BuiltIn) (path : String)
    (rule : Option Rule) (build : Build) :
    Stretches (session.compile path rule build).1 build (session.compile path rule build).2 :=
  stretches_compileWithin hBuiltIn ..

end Session

end AssetLoom
