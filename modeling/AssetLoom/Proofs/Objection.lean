import AssetLoom.Proofs.Aloof
import AssetLoom.Proofs.Interruption

/-!
# The first observer that fails

An observer that fails is the last one to be called. From then on the compiles that are open are
closed, one after the other, and nothing else is done: nothing is written down any more, and each
recipe on the way out hands on the same error (`objection_ends_call`).

`Session.Settles` says this of a part of a build: either no observer fails in it (`Calm`), or the
first one that does stops it (`Stops`).
-/

namespace AssetLoom

namespace Build

/-- From one build to another, the innermost compiles are closed with an error. -/
inductive Closes (e : CompileError) : Build → List Build → Build → Prop
  | none (build : Build) : Closes e build [] build
  | leave {point last : Build} {closing : List Build} {path : String} {outer : List String}
      (h : Closes e point closing last) (hTop : last.stack = outer ++ [path])
      (hOpen : last.resources.state? path = some .compiling) :
      Closes e point (closing ++ [last.leave path (.error e)]) (last.leave path (.error e))

namespace Closes

variable {e : CompileError} {point last : Build} {closing : List Build}

theorem journal_eq (h : Closes e point closing last) : last.journal = point.journal := by
  induction h with
  | none => rfl
  | leave _ _ _ ih => exact ih

/-- The compiles that are closed were open, and are pending then. Nothing else changes. -/
theorem exists_opened (h : Closes e point closing last) :
    ∃ opened, point.stack = last.stack ++ opened ∧ closing.length = opened.length ∧
      (∀ q ∈ opened, point.resources.state? q = some .compiling ∧
        last.resources.state? q = some .pending) ∧
      ∀ q, q ∉ opened → last.resources.get? q = point.resources.get? q := by
  induction h with
  | none => exact ⟨[], by simp⟩
  | @leave last closing path outer _ hTop hOpen ih =>
    obtain ⟨opened, hStack, hLength, hOpened, hOther⟩ := ih
    have hLeft : ∀ q, (last.leave path (.error e)).resources.state? q =
        if q = path then some .pending else last.resources.state? q := by
      intro q
      rw [state?_leave]
      split
      · next hq =>
        rw [hq, hOpen]
        rfl
      · rfl
    have hFresh : path ∉ opened := by
      intro hMem
      have := (hOpened path hMem).2
      rw [hOpen] at this
      cases this
    refine ⟨path :: opened, ?_, by simp [hLength], ?_, ?_⟩
    · have hOuter : (last.leave path (.error e)).stack = outer := by simp [Build.leave, hTop]
      rw [hStack, hTop, hOuter, List.append_assoc, List.singleton_append]
    · refine List.forall_mem_cons.mpr ⟨⟨?_, ?_⟩, fun q hq => ?_⟩
      · rw [Registry.state?, ← hOther path hFresh]
        exact hOpen
      · rw [hLeft, if_pos rfl]
      · have hNe : q ≠ path := fun h => hFresh (h ▸ hq)
        rw [hLeft, if_neg hNe]
        exact hOpened q hq
    · intro q hq
      obtain ⟨hNe, hq⟩ := not_or.mp (mt List.mem_cons.mpr hq)
      rw [← hOther q hq]
      exact (Registry.get?_setState ..).trans (if_neg hNe)

end Closes

theorem Change.journal_prefix {a b : Build} (h : Change a b) : a.journal <+: b.journal := by
  cases h with
  | write entry => exact List.prefix_append ..
  | enter path kind => exact List.prefix_append ..
  | _ => exact List.prefix_refl _

theorem Walk.journal_prefix {a b : Build} {trail : List Build} (h : Walk a trail b) :
    ∀ point ∈ a :: trail, point.journal <+: b.journal := by
  induction h with
  | nil build => simp
  | @cons build next last trail hChange _ ih =>
    refine List.forall_mem_cons.mpr ⟨?_, ih⟩
    exact hChange.journal_prefix.trans (ih next List.mem_cons_self)

end Build

namespace Session

open Build (Walk Closes Balanced)

/-! ## Observers that fail -/

/-- Whether the observer with a number is told of an event of a resource. -/
def isCall (number : Nat) (event : Event) (path : String) : Entry → Bool
  | .observed told seen resource => told = number ∧ seen = event ∧ resource.path = path
  | _ => false

theorem isCall_eq_true_iff {number : Nat} {event : Event} {path : String} {entry : Entry} :
    isCall number event path entry = true ↔
      ∃ resource, entry = .observed number event resource ∧ resource.path = path := by
  cases entry <;> simp [isCall, and_assoc]

/-- With the entry, after the given others, an observer is told of an event, and it fails with this
error. -/
inductive Objects (session : Session) (before : Journal) : Entry → CompileError → Prop
  | intro {number : Nat} {event : Event} {resource : Resource} {observer : Observer}
      {reason : String} (hObserver : session.observers[number]? = some observer)
      (hReason : observer.react before event resource = some reason) :
      Objects session before (.observed number event resource)
        (.hook event resource.path reason)

theorem Objects.unique {session : Session} {before : Journal} {entry : Entry}
    {e e' : CompileError} (h : session.Objects before entry e)
    (h' : session.Objects before entry e') : e = e' := by
  cases h with
  | intro hObserver hReason =>
    cases h' with
    | intro hObserver' hReason' =>
      rw [hObserver] at hObserver'
      cases hObserver'
      rw [hReason] at hReason'
      cases hReason'
      rfl

/-- No observer fails from one build to another. -/
structure Calm (session : Session) (a b : Build) : Prop where
  isPrefix : a.journal <+: b.journal
  calm : ∀ before entry e, a.journal <+: before → before ++ [entry] <+: b.journal →
    ¬ session.Objects before entry e

/-- The entries of all observers that are told of an event. -/
def callsOf (event : Event) (resource : Resource) (observers : List Observer) : List Entry :=
  (observers.zipIdx.filter fun (observer, _) => observer.hears event).map
    fun (_, number) => .observed number event resource

/-- The first observer that fails is told of an event after those before it. With it everything
ends but the open compiles, which are closed. -/
inductive Stops (session : Session) (e : CompileError) (build : Build) :
    List Build → Build → Prop
  | intro {earlier : Journal} {passed closing : List Build} {told last : Build} {number : Nat}
      {event : Event} {resource : Resource} (hWalk : Walk build passed told)
      (hCalm : session.Calm build told)
      (hObjects : session.Objects told.journal (.observed number event resource) e)
      (hEarlier : build.journal <+: earlier)
      (hTold : told.journal = earlier ++ .emitted event resource.path ::
        callsOf event resource (session.observers.take number))
      (hCloses : Closes e (told.write (.observed number event resource)) closing last) :
      Stops session e build (passed ++ told.write (.observed number event resource) :: closing) last

/-- From one build to another, with the given failure, if any: either no observer fails, or the
first one that does stops it. -/
inductive Settles (session : Session) (build : Build) :
    Option CompileError → List Build → Build → Prop
  | calm {failure : Option CompileError} {trail : List Build} {last : Build}
      (hCalm : session.Calm build last)
      (hHook : ∀ event path reason, failure ≠ some (.hook event path reason)) :
      Settles session build failure trail last
  | stopped {e : CompileError} {trail : List Build} {last : Build}
      (hStops : session.Stops e build trail last) : Settles session build (some e) trail last

variable {session : Session} {a b c build middle last : Build} {e : CompileError}
  {failure : Option CompileError} {first trail : List Build}

namespace Calm

theorem of_journal (h : b.journal = a.journal) : session.Calm a b := by
  refine ⟨h ▸ List.prefix_refl _, ?_⟩
  intro before entry e hBefore hAfter
  have hLength := ((h ▸ hAfter).trans hBefore).length_le
  rw [List.length_append, List.length_singleton] at hLength
  omega

theorem refl (build : Build) : session.Calm build build := of_journal rfl

theorem trans (h : session.Calm a b) (h' : session.Calm b c) : session.Calm a c := by
  refine ⟨h.isPrefix.trans h'.isPrefix, ?_⟩
  intro before entry e hBefore hAfter
  by_cases hLength : before.length < b.journal.length
  · refine h.calm before entry e hBefore (List.prefix_of_prefix_length_le hAfter h'.isPrefix ?_)
    simp only [List.length_append, List.length_singleton]
    omega
  · refine h'.calm before entry e (List.prefix_of_prefix_length_le h'.isPrefix ?_ ?_) hAfter
    · exact (List.prefix_append ..).trans hAfter
    · omega

theorem of_entry {entry : Entry} (hMore : b.journal = a.journal ++ [entry])
    (hEntry : ∀ e, ¬ session.Objects a.journal entry e) : session.Calm a b := by
  refine ⟨hMore ▸ List.prefix_append .., ?_⟩
  intro before entry' e hBefore hAfter
  rw [hMore, List.prefix_concat_iff] at hAfter
  rcases hAfter with hSame | hInside
  · obtain ⟨rfl, hLast⟩ := List.append_inj' hSame rfl
    obtain rfl := List.singleton_inj.mp hLast
    exact hEntry e
  · have hLength := (hInside.trans hBefore).length_le
    rw [List.length_append, List.length_singleton] at hLength
    omega

/-- Only an observer that is told of something can fail. -/
theorem of_silent {entry : Entry} (hMore : b.journal = a.journal ++ [entry])
    (hSilent : ∀ number event resource, entry ≠ .observed number event resource) :
    session.Calm a b := by
  refine of_entry hMore fun e hObjects => ?_
  cases hObjects with
  | intro => exact hSilent _ _ _ rfl

end Calm

/-! ## Parts of a build, one after the other -/

theorem Stops.prepend (hWalk : Walk build first middle) (hCalm : session.Calm build middle)
    (h : session.Stops e middle trail last) : session.Stops e build (first ++ trail) last := by
  cases h with
  | intro hWalk' hCalm' hObjects hEarlier hTold hCloses =>
    rw [← List.append_assoc]
    exact .intro (hWalk.append hWalk') (hCalm.trans hCalm') hObjects
      (hCalm.isPrefix.trans hEarlier) hTold hCloses

theorem Stops.leave (h : session.Stops e build trail last) {path : String} {outer : List String}
    (hTop : last.stack = outer ++ [path])
    (hOpen : last.resources.state? path = some .compiling) :
    session.Stops e build (trail ++ [last.leave path (.error e)])
      (last.leave path (.error e)) := by
  cases h with
  | intro hWalk hCalm hObjects hEarlier hTold hCloses =>
    rw [List.append_assoc]
    exact .intro hWalk hCalm hObjects hEarlier hTold (hCloses.leave hTop hOpen)

namespace Settles

theorem calm_of_none (h : session.Settles build none trail last) : session.Calm build last := by
  cases h with
  | calm hCalm _ => exact hCalm

theorem of_calm (hCalm : session.Calm build last) : session.Settles build none trail last :=
  .calm hCalm (by simp)

theorem refl (build : Build) : session.Settles build none [] build := of_calm (.refl build)

theorem prepend (hWalk : Walk build first middle) (hCalm : session.Calm build middle)
    (h : session.Settles middle failure trail last) :
    session.Settles build failure (first ++ trail) last := by
  cases h with
  | calm hCalm' hHook => exact .calm (hCalm.trans hCalm') hHook
  | stopped hStops => exact .stopped (hStops.prepend hWalk hCalm)

theorem cons (hChange : Build.Change build middle) (hCalm : session.Calm build middle)
    (h : session.Settles middle failure trail last) :
    session.Settles build failure (middle :: trail) last :=
  h.prepend (.single hChange) hCalm

theorem append (hWalk : Walk build first middle) (h : session.Settles build none first middle)
    (h' : session.Settles middle failure trail last) :
    session.Settles build failure (first ++ trail) last :=
  h'.prepend hWalk h.calm_of_none

/-- The compile that everything has happened in is closed. -/
theorem leave {outcome : Outcome} (h : session.Settles build (failureOf outcome) trail last)
    {path : String} {outer : List String} (hTop : last.stack = outer ++ [path])
    (hOpen : last.resources.state? path = some .compiling) :
    session.Settles build (failureOf outcome) (trail ++ [last.leave path outcome])
      (last.leave path outcome) := by
  cases outcome with
  | ok => exact .of_calm (h.calm_of_none.trans (.of_journal rfl))
  | error e =>
    change session.Settles build (some e) trail last at h
    cases h with
    | calm hCalm hHook => exact .calm (hCalm.trans (.of_journal rfl)) hHook
    | stopped hStops => exact .stopped (hStops.leave hTop hOpen)

end Settles

/-! ## Events -/

theorem callsOf_append_singleton (event : Event) (resource : Resource) (observers : List Observer)
    (observer : Observer) : callsOf event resource (observers ++ [observer]) =
      callsOf event resource observers ++
        if observer.hears event then [.observed observers.length event resource] else [] := by
  by_cases h : observer.hears event = true <;> simp [callsOf, List.zipIdx_append, h]

/-- Those observers that are told of an event are told of it in their order. -/
theorem settles_notify {event : Event} {resource : Resource} {earlier : Journal}
    {passed : List Build} (hEarlier : build.journal <+: earlier) {number : Nat}
    {observers : List Observer} (hObservers : session.observers.drop number = observers)
    {told : Build} (hWalk : Walk build passed told) (hCalm : session.Calm build told)
    (hTold : told.journal = earlier ++ .emitted event resource.path ::
      callsOf event resource (session.observers.take number)) :
    session.Settles build (failureOf (notify event resource number observers told).1)
      (passed ++ notifyTrail event resource number observers told)
      (notify event resource number observers told).2 := by
  induction observers generalizing number passed told with
  | nil => exact .of_calm hCalm
  | cons observer rest ih =>
    have hNumber : session.observers[number]? = some observer := by
      rw [← Nat.add_zero number, ← List.getElem?_drop, hObservers, List.getElem?_cons_zero]
    have hRest : session.observers.drop (number + 1) = rest := by
      rw [← List.drop_drop, hObservers, List.drop_one, List.tail_cons]
    have hLength : (session.observers.take number).length = number := by
      have := (List.getElem?_eq_some_iff.mp hNumber).1
      simp only [List.length_take]
      omega
    have hTake : session.observers.take (number + 1) =
        session.observers.take number ++ [observer] := by
      rw [List.take_add_one, hNumber, Option.toList_some]
    have hCalls := callsOf_append_singleton event resource (session.observers.take number) observer
    rw [hLength] at hCalls
    by_cases hHears : observer.hears event = true
    · cases hReact : observer.react told.journal event resource with
      | some reason =>
        simp only [notify, notifyTrail, hHears, hReact, if_true]
        exact .stopped (.intro hWalk hCalm (.intro hNumber hReact) hEarlier hTold (.none _))
      | none =>
        have hQuiet : ∀ e, ¬ session.Objects told.journal (.observed number event resource) e := by
          rintro e ⟨hObserver, hReason⟩
          rw [hNumber] at hObserver
          cases hObserver
          rw [hReact] at hReason
          cases hReason
        simp only [notify, notifyTrail, hHears, hReact, if_true]
        rw [← List.singleton_append, ← List.append_assoc]
        refine ih hRest (hWalk.append (.single (.write told _)))
          (hCalm.trans (.of_entry rfl hQuiet)) ?_
        rw [hTake, hCalls, if_pos hHears, Build.write, hTold, List.append_assoc, List.cons_append]
    · simp only [notify, notifyTrail, hHears]
      refine ih hRest hWalk hCalm ?_
      rw [hTake, hCalls, if_neg hHears, List.append_nil, hTold]

theorem settles_emit (session : Session) (event : Event) (path : String) (build : Build) :
    session.Settles build (failureOf (session.emit event path build).1)
      (session.emitTrail event path build) (session.emit event path build).2 := by
  cases hGet : build.resources.get? path with
  | none =>
    simp only [emit, hGet]
    exact .calm (.refl build) (by simp)
  | some resource =>
    simp only [emit, emitTrail, hGet]
    have hEmitted : session.Calm build (build.write (.emitted event resource.path)) :=
      .of_silent rfl (by simp)
    exact settles_notify (List.prefix_refl _) List.drop_zero (.single (.write build _)) hEmitted
      rfl

theorem settles_resolveUri (session : Session) (path : String) (rule : Option Rule)
    (build : Build) : session.Settles build (failureOf (session.resolveUri path rule build).1)
      (session.resolveTrail path rule build) (session.resolveUri path rule build).2 := by
  have hWalk := walk_emitTrail session .preResolve path build
  have hFirst := settles_emit session .preResolve path build
  unfold resolveUri resolveTrail
  generalize session.emit .preResolve path build = answer at hWalk hFirst ⊢
  obtain ⟨outcome, told⟩ := answer
  cases outcome with
  | error e => simpa using hFirst
  | ok =>
    refine hFirst.append hWalk ?_
    cases hUri : uriBy rule path with
    | error e =>
      obtain ⟨pattern, found, rfl⟩ := uriBy_eq_error hUri
      exact .calm (.refl told) (by simp)
    | ok uri =>
      refine .cons (.write told _) (.of_silent rfl (by simp)) ?_
      exact .cons (.setUri _ path uri) (.of_journal rfl) (settles_emit ..)

/-! ## Requests and recipes -/

section

variable {compile : String → Option Rule → Build → Outcome × Build}
  {trail : String → Option Rule → Build → List Build}
  (hWalk : ∀ path rule build, Walk build (trail path rule build) (compile path rule build).2)
  (hCompile : ∀ path rule build, session.Settles build (failureOf (compile path rule build).1)
    (trail path rule build) (compile path rule build).2)
include hCompile

theorem settles_require (referrer target : String) (build : Build) :
    session.Settles build (failureOf (session.requireBy compile referrer target build).1)
      (requireTrail trail session referrer target build)
      (session.requireBy compile referrer target build).2 := by
  cases hGet : build.resources.get? target with
  | none =>
    simp only [requireBy, hGet]
    exact .calm (.refl build) (by simp)
  | some dependency =>
    by_cases hCompiled : dependency.isCompiled = true
    · simp only [requireBy, hGet, hCompiled, if_true]
      exact .calm (.refl build) (by simp)
    · cases hTarget : ((session.rules.find? target).map Rule.destination).getD (.ok none) with
      | error e =>
        simp only [requireBy, hGet, hCompiled, hTarget]
        refine .calm (.refl build) ?_
        cases hRule : session.rules.find? target with
        | none => simp [hRule] at hTarget
        | some rule =>
          rw [hRule] at hTarget
          obtain ⟨pattern, found, rfl⟩ := destination_eq_error hTarget
          simp
      | ok destination =>
        simp only [requireBy, requireTrail, hGet, hCompiled, hTarget]
        exact .cons (.write build _) (.of_silent rfl (by simp)) (hCompile ..)

include hWalk

theorem settles_each (paths : List String) (build : Build) :
    session.Settles build (failureOf (session.compileEachBy compile paths build).1)
      (eachTrail compile trail session paths build)
      (session.compileEachBy compile paths build).2 := by
  induction paths generalizing build with
  | nil => exact .refl build
  | cons path rest ih =>
    have hWalkFirst := hWalk path (session.rules.find? path) build
    have hFirst := hCompile path (session.rules.find? path) build
    unfold compileEachBy eachTrail
    generalize compile path (session.rules.find? path) build = answer at hWalkFirst hFirst ⊢
    obtain ⟨outcome, middle⟩ := answer
    cases outcome with
    | ok => exact hFirst.append hWalkFirst (ih middle)
    | error e => simpa using hFirst

theorem settles_answer (request : Request) (build : Build) :
    session.Settles build (request.failure? (session.answer compile request build).1)
      (answerTrail compile trail session request build)
      (session.answer compile request build).2 := by
  cases request with
  | lookUp path => exact .refl build
  | emit event path => exact settles_emit ..
  | compile path rule => exact hCompile path rule build
  | compileRoot path => exact hCompile path _ build
  | compileAll =>
    exact .cons (.write build _) (.of_silent rfl (by simp)) (settles_each hWalk hCompile ..)
  | require referrer target => exact settles_require hCompile referrer target build
  | resolveUri path rule => exact settles_resolveUri ..
  | replaceContent path text =>
    refine .calm ?_ ?_
    · simp only [answer, replaceContent]
      split <;> exact .of_journal rfl
    · simp only [answer, replaceContent]
      split <;> simp [Request.failure?]
  | countEdits pass path count => exact .of_calm (.of_silent rfl (by simp))

/-- An orderly recipe hands on the error of the observer that fails, and stops. -/
theorem settles_run {path : String} {α : Type} {recipe : Recipe (Except CompileError α)}
    (hOrderly : recipe.Orderly path) (build : Build) :
    session.Settles build (failureOf (session.run compile recipe build).1)
      (runTrail compile trail session recipe build) (session.run compile recipe build).2 := by
  induction recipe generalizing build with
  | done result =>
    refine .calm (.refl build) fun event path reason hHook => ?_
    obtain ⟨key, hKey⟩ := hOrderly _ hHook
    cases hKey
  | ask request next ih =>
    have hFirst := settles_answer hWalk hCompile request build
    have hWalkFirst := walk_answerTrail hWalk session request build
    obtain ⟨hStop, hOn⟩ := hOrderly.2 (session.answer compile request build).1
    simp only [run, runTrail]
    cases hFailure : request.failure? (session.answer compile request build).1 with
    | none =>
      rw [hFailure] at hFirst
      exact hFirst.append hWalkFirst (ih _ (hOn hFailure) _)
    | some e =>
      rw [hFailure] at hFirst
      rw [hStop e hFailure, runTrail, List.append_nil, run]
      exact hFirst

end

theorem settles_compileWithin (hBuiltIn : session.compilers.BuiltIn) (depth : Nat) (path : String)
    (rule : Option Rule) (build : Build) :
    session.Settles build (failureOf (session.compileWithin depth path rule build).1)
      (session.compileTrailWithin depth path rule build)
      (session.compileWithin depth path rule build).2 := by
  induction depth generalizing path rule build with
  | zero =>
    simp only [compileWithin]
    repeat' split
    all_goals exact .calm (.refl build) (by simp [Build.circle])
  | succ depth ih =>
    cases hGet : build.resources.get? path with
    | none =>
      simp only [compileWithin, hGet]
      exact .calm (.refl build) (by simp)
    | some resource =>
      cases hState : resource.state with
      | compiled =>
        simp only [compileWithin, hGet, hState]
        exact .calm (.refl build) (by simp)
      | compiling =>
        simp only [compileWithin, hGet, hState]
        exact .calm (.refl build) (by simp [Build.circle])
      | pending =>
        simp only [compileWithin, compileTrailWithin, hGet, hState, List.cons_append]
        have hPending := Registry.state?_eq_some_iff.mpr ⟨resource, hGet, hState⟩
        have hWalk := fun path rule build => walk_compileTrailWithin session depth path rule build
        have hRun := settles_run hWalk ih
          (hBuiltIn.orderly resource.kind session.options path rule)
          (build.enter path resource.kind)
        have hBalanced := run_frame Build.balanced_isFrame
          (compileWithin_frame Build.balanced_isFrame session depth) session
          (session.compilers.forKind resource.kind session.options path rule).run
          (build.enter path resource.kind)
        generalize session.run (session.compileWithin depth)
          (session.compilers.forKind resource.kind session.options path rule).run
          (build.enter path resource.kind) = answer at hRun hBalanced ⊢
        obtain ⟨outcome, closing⟩ := answer
        have hOpen := Build.state?_enter_self hPending resource.kind
        exact .cons (.enter build path _ hPending) (.of_silent rfl (by simp))
          (hRun.leave hBalanced.stack_eq ((hBalanced.compiling_iff path).mpr hOpen))

theorem settles_compile (hBuiltIn : session.compilers.BuiltIn) (path : String)
    (rule : Option Rule) (build : Build) :
    session.Settles build (failureOf (session.compile path rule build).1)
      (session.compileTrail path rule build) (session.compile path rule build).2 :=
  settles_compileWithin hBuiltIn _ path rule build

/-! ## Calls -/

/-- If an observer fails in a call, whatever is called for and however the observers behave, then
nothing is written down any more and the call has its error. The observers before it have been told
of the event in their order. From the point where it fails the trail of the call goes on with one
change for each open compile: what was being compiled in this call is pending in the end. Whatever
else there is, compiled or not, stays as it was at that point. -/
theorem objection_ends_call (hBuiltIn : session.compilers.BuiltIn) (request : Request)
    {reply : request.Answer}
    (hAnswer : session.answer session.compile request build = (reply, last))
    {before after : Journal} {entry : Entry} (hJournal : last.journal = before ++ entry :: after)
    (hNew : build.journal <+: before) (hObjects : session.Objects before entry e) :
    after = [] ∧ request.failure? reply = some e ∧
    (∃ number event resource earlier, entry = .observed number event resource ∧
      build.journal <+: earlier ∧ before = earlier ++ .emitted event resource.path ::
        callsOf event resource (session.observers.take number)) ∧
    ∃ passed point closing opened,
      answerTrail session.compile session.compileTrail session request build =
        passed ++ point :: closing ∧
      (∀ earlier ∈ passed, earlier.journal <+: before) ∧ point.journal = before ++ [entry] ∧
      point.stack = build.stack ++ opened ∧ closing.length = opened.length ∧
      (∀ q ∈ opened, point.resources.state? q = some .compiling ∧
        last.resources.state? q = some .pending) ∧
      ∀ q, q ∉ opened → last.resources.get? q = point.resources.get? q := by
  have hWalk : ∀ path rule build, Walk build (session.compileTrail path rule build)
      (session.compile path rule build).2 :=
    fun path rule build => walk_compileTrailWithin session _ path rule build
  have hSettles := settles_answer hWalk (settles_compile hBuiltIn) request build
  have hBalanced := answer_frame Build.balanced_isFrame
    (compile_frame Build.balanced_isFrame session) session request build
  rw [hAnswer] at hSettles hBalanced
  have hEntry : before ++ [entry] <+: last.journal := ⟨after, by simp [hJournal]⟩
  generalize hTrail : answerTrail session.compile session.compileTrail session request build =
    trail at hSettles
  generalize hFailure : request.failure? reply = failure at hSettles
  cases hSettles with
  | calm hCalm _ => exact absurd hObjects (hCalm.calm before entry e hNew hEntry)
  | @stopped e' _ _ hStops =>
    cases hStops with
    | @intro earlier passed closing told _ number event resource hPassed hCalm hObjects' hEarlier
        hTold hCloses =>
      have hLast : last.journal = told.journal ++ [.observed number event resource] :=
        hCloses.journal_eq
      -- The entry is not one of those before, for which no observer fails.
      have hEnd : after = [] := by
        rcases List.eq_nil_or_concat after with hNil | ⟨more, final, rfl⟩
        · exact hNil
        · rw [hJournal, List.concat_eq_append, List.append_cons, ← List.append_assoc] at hLast
          obtain ⟨hBefore, -⟩ := List.append_inj' hLast rfl
          exact absurd hObjects
            (hCalm.calm before entry e hNew (hBefore ▸ List.prefix_append ..))
      subst hEnd
      obtain ⟨rfl, hSame⟩ := List.append_inj' (hJournal.symm.trans hLast) rfl
      obtain rfl := List.singleton_inj.mp hSame
      obtain rfl := hObjects.unique hObjects'
      obtain ⟨opened, hStack, hLength, hOpened, hOther⟩ := hCloses.exists_opened
      refine ⟨rfl, rfl, ⟨number, event, resource, earlier, rfl, hEarlier, hTold⟩, passed, _,
        closing, opened, rfl, ?_, rfl, hBalanced.stack_eq ▸ hStack, hLength, hOpened, hOther⟩
      exact fun point hPoint => hPassed.journal_prefix point (List.mem_cons_of_mem _ hPoint)

/-- The second of three observers fails, for a template that another one includes. -/
theorem objection_ends_call_include :
    let start : Build := { resources :=
      { entries := [{ path := "a.tpl", kind := .template,
                      content := "\x7b\x7binclude file=\"b.tpl\"\x7d\x7d".toUTF8 },
          { path := "b.tpl", kind := .template, content := "-".toUTF8 }]
        paths_nodup := by decide } }
    let session : Session := { observers :=
      [.silent none, .failing 1 (some .compiled) (some "b.tpl") "no" none, .silent none] }
    let result := session.answer session.compile (.compileRoot "a.tpl") start
    ∃ before entry, result.2.journal = before ++ [entry] ∧
      session.Objects before entry (.hook .compiled "b.tpl" "no") ∧
      (Request.compileRoot "a.tpl").failure? result.1 = some (.hook .compiled "b.tpl" "no") ∧
      ∀ q ∈ ["a.tpl", "b.tpl"], result.2.resources.state? q = some .pending := by
  intro start session result
  have hLast : result.2.journal.getLast?.any (isCall 1 .compiled "b.tpl") = true := by
    decide +kernel
  obtain ⟨final, hFinal, hCall⟩ := (Option.any_eq_true ..).mp hLast
  obtain ⟨before, hJournal⟩ := List.getLast?_eq_some_iff.mp hFinal
  obtain ⟨resource, rfl, hPath⟩ := isCall_eq_true_iff.mp hCall
  have hObjects : session.Objects before (.observed 1 .compiled resource)
      (.hook .compiled "b.tpl" "no") := by
    rw [← hPath]
    refine .intro rfl ?_
    simp [Observer.failing, hPath]
  have hAnswer : session.answer session.compile (.compileRoot "a.tpl") start =
      (result.1, result.2) := rfl
  refine ⟨before, _, hJournal, hObjects, ?_, by decide +kernel⟩
  exact (objection_ends_call Compilers.builtIn_default (.compileRoot "a.tpl") hAnswer hJournal
    List.nil_prefix hObjects).2.1

end Session

end AssetLoom
