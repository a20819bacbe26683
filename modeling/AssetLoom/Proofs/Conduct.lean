import AssetLoom.Compiler.Manifest
import AssetLoom.Proofs.Rewrite

/-!
# How compilers behave

What a compiler does to resources other than its own is to ask that they are compiled
(`Compiler.TendsOwn`), so it writes to its own resource only (`Compiler.TendsOwn.writesOwn`). The
compiler for manifests is such a compiler. The built-in compilers do even less (`Recipe.Orderly`):
all that they ask for besides is about their own resource, and an error that they are answered is
their own result, with nothing asked for behind it.
-/

namespace AssetLoom

/-! ## Requests about one resource -/

/-- The resource that a request writes to, not counting what is compiled for it. -/
def Request.written? : Request → Option String
  | .resolveUri path _ | .replaceContent path _ => some path
  | _ => none

/-- Whatever the recipe is answered, it writes to no resource but the one with the given path. -/
def Recipe.WritesOnly (path : String) {α : Type} : Recipe α → Prop
  | .done _ => True
  | .ask request next =>
    (∀ written ∈ request.written?, written = path) ∧ ∀ answer, WritesOnly path (next answer)

/-- The compiler writes to no resource but the one that it compiles. -/
def Compiler.WritesOwn (compiler : Compiler) : Prop :=
  ∀ options path rule, (compiler options path rule).run.WritesOnly path

/-- The resource that a request is about, not counting what is compiled for it. -/
def Request.subject? : Request → Option String
  | .emit _ path | .resolveUri path _ | .replaceContent path _ | .countEdits _ path _ => some path
  | _ => none

/-- Whatever the recipe is answered, it asks for nothing about the resource `q` but to compile
it. -/
def Recipe.Spares (q : String) {α : Type} : Recipe α → Prop
  | .done _ => True
  | .ask request next => request.subject? ≠ some q ∧ ∀ answer, Spares q (next answer)

/-- The compiler asks for nothing about other resources than its own but to compile them. -/
def Compiler.TendsOwn (compiler : Compiler) : Prop :=
  ∀ options path rule, ∀ q ≠ path, (compiler options path rule).run.Spares q

theorem Request.written?_eq_subject? {request : Request} {path : String}
    (h : request.written? = some path) : request.subject? = some path := by
  cases request <;> first | exact h | cases h

theorem Recipe.writesOnly_of_spares {path : String} {α : Type} {recipe : Recipe α}
    (h : ∀ q ≠ path, recipe.Spares q) : recipe.WritesOnly path := by
  induction recipe with
  | done result => trivial
  | ask request next ih =>
    refine ⟨?_, fun answer => ih answer fun q hq => (h q hq).2 answer⟩
    intro written hWritten
    by_contra hOther
    exact (h written hOther).1 (Request.written?_eq_subject? hWritten)

theorem Compiler.TendsOwn.writesOwn {compiler : Compiler} (h : compiler.TendsOwn) :
    compiler.WritesOwn :=
  fun options path rule => Recipe.writesOnly_of_spares (h options path rule)

/-- The compiler for a kind is one of those that are registered. -/
theorem Compilers.writesOwn {compilers : Compilers}
    (hKinds : ∀ entry ∈ compilers.byKind, entry.2.WritesOwn)
    (hFallback : compilers.fallback.WritesOwn) (kind : ResourceKind) :
    (compilers.forKind kind).WritesOwn := by
  unfold forKind
  cases h : compilers.byKind.lookup kind with
  | none => exact hFallback
  | some compiler =>
    obtain ⟨_, _, hEntries, -⟩ := List.lookup_eq_some_iff.mp h
    exact hKinds (kind, compiler) (by simp [hEntries])

namespace Recipe.Spares

variable {q : String}

theorem bind {α β : Type} {x : Recipe α} {f : α → Recipe β} (hx : x.Spares q)
    (hf : ∀ a, (f a).Spares q) : (x >>= f).Spares q := by
  induction x with
  | done a => exact hf a
  | ask request next ih => exact ⟨hx.1, fun answer => ih answer (hx.2 answer)⟩

theorem task_bind {α β : Type} {x : Task α} {f : α → Task β} (hx : x.run.Spares q)
    (hf : ∀ a, (f a).run.Spares q) : (x >>= f).run.Spares q := by
  rw [ExceptT.run_bind]
  refine hx.bind fun result => ?_
  cases result with
  | ok a => exact hf a
  | error e => trivial

theorem task_fetch (key : String) : (Task.fetch key).run.Spares q := by
  refine ⟨nofun, fun answer => ?_⟩
  cases answer <;> trivial

theorem task_require (referrer key : String) : (Task.require referrer key).run.Spares q :=
  ⟨nofun, fun _ => trivial⟩

/-- To collect edits changes nothing, not even for the template that they are collected for. -/
theorem collectEdits (path : String) (replacement : Planned → Resource → Text)
    (planned : List Planned) : (AssetLoom.collectEdits path replacement planned).run.Spares q := by
  induction planned with
  | nil => trivial
  | cons p planned ih =>
    refine task_bind (task_require ..) fun _ => ?_
    exact task_bind (task_fetch p.key) fun r => task_bind ih fun edits => trivial

theorem compileManifestLines (path : String) (lines : List Text) :
    (AssetLoom.compileManifestLines path lines).run.Spares q := by
  induction lines with
  | nil => trivial
  | cons line lines ih =>
    refine task_bind ?_ fun _ => ih
    unfold compileManifestLine
    split
    · trivial
    · refine bind ⟨nofun, fun _ => trivial⟩ fun result => ?_
      cases result <;> trivial
    · exact task_require ..

end Recipe.Spares

theorem tendsOwn_manifestCompiler : manifestCompiler.TendsOwn := by
  intro options path rule q hq
  have hOther : some path ≠ some q := fun h => hq (Option.some.inj h).symm
  refine Recipe.Spares.task_bind ⟨hOther, fun _ => trivial⟩ fun _ => ?_
  refine Recipe.Spares.task_bind (.task_fetch path) fun resource => ?_
  refine Recipe.Spares.task_bind (.compileManifestLines ..) fun _ => ?_
  refine Recipe.Spares.task_bind ⟨hOther, fun _ => trivial⟩ fun _ => ?_
  exact ⟨hOther, fun _ => trivial⟩

/-! ## Orderly recipes -/

/-- The error of a result. -/
def failureOf {α : Type} : Except CompileError α → Option CompileError
  | .ok _ => none
  | .error e => some e

@[simp]
theorem failureOf_ok {α : Type} (a : α) : failureOf (.ok a) = none := rfl

@[simp]
theorem failureOf_error {α : Type} (e : CompileError) :
    failureOf (.error e : Except CompileError α) = some e := rfl

/-- The error that an answer tells of. -/
def Request.failure? : (request : Request) → request.Answer → Option CompileError
  | .lookUp _, _ => none
  | .countEdits _ _ _, _ => none
  | .emit _ _, (outcome : Outcome) => failureOf outcome
  | .compile _ _, (outcome : Outcome) => failureOf outcome
  | .compileRoot _, (outcome : Outcome) => failureOf outcome
  | .compileAll, (outcome : Outcome) => failureOf outcome
  | .require _ _, (outcome : Outcome) => failureOf outcome
  | .resolveUri _ _, (outcome : Outcome) => failureOf outcome
  | .replaceContent _ _, (outcome : Outcome) => failureOf outcome

/-- What a compile of the resource `path` asks for: something about this resource, what another
one is, or that it is compiled. -/
inductive Request.Own (path : String) : Request → Prop
  | lookUp (key : String) : Own path (.lookUp key)
  | emit (event : Event) : Own path (.emit event path)
  | require (key : String) : Own path (.require path key)
  | resolveUri (rule : Option Rule) : Own path (.resolveUri path rule)
  | replaceContent (text : Text) : Own path (.replaceContent path text)
  | countEdits (pass : Pass) (count : Nat) : Own path (.countEdits pass path count)

/-- The recipe for the resource `path` asks for nothing else, and hands on the first error that it
is answered. It has no errors of its own, but for a resource that it misses. -/
def Recipe.Orderly (path : String) {α : Type} : Recipe (Except CompileError α) → Prop
  | .done result => ∀ e, failureOf result = some e → ∃ key, e = .unknownRoot key
  | .ask request next => request.Own path ∧ ∀ answer,
      (∀ e, request.failure? answer = some e → next answer = .done (.error e)) ∧
      (request.failure? answer = none → Orderly path (next answer))

namespace Recipe.Orderly

variable {path : String} {α β : Type}

theorem done (a : α) : (Recipe.done (.ok a : Except CompileError α)).Orderly path := nofun

theorem bind {x : Task α} {f : α → Task β} (hx : x.run.Orderly path)
    (hf : ∀ a, (f a).run.Orderly path) : (x >>= f).run.Orderly path := by
  rw [ExceptT.run_bind]
  generalize x.run = recipe at hx
  induction recipe with
  | done result =>
    cases result with
    | ok a => exact hf a
    | error e => exact hx
  | ask request next ih =>
    refine ⟨hx.1, fun answer => ⟨?_, fun hNone => ih answer ((hx.2 answer).2 hNone)⟩⟩
    intro e hError
    show (next answer).bind _ = _
    rw [(hx.2 answer).1 e hError]
    rfl

/-- A single request is handed on with its answer. -/
theorem ask {request : Request} (hOwn : request.Own path)
    (toOutcome : request.Answer → Except CompileError α)
    (hSame : ∀ answer, failureOf (toOutcome answer) = request.failure? answer) :
    (Recipe.ask request fun answer => .done (toOutcome answer)).Orderly path := by
  refine ⟨hOwn, fun answer => ⟨?_, ?_⟩⟩
  · intro e hError
    rw [← hSame answer] at hError
    cases h : toOutcome answer with
    | ok a =>
      rw [h] at hError
      cases hError
    | error e' =>
      rw [h] at hError
      cases hError
      show Recipe.done (toOutcome answer) = _
      rw [h]
  · intro hNone e hError
    rw [← hSame answer, hError] at hNone
    cases hNone

theorem emit (event : Event) : (Task.emit event path).run.Orderly path :=
  ask (.emit event) id fun _ => rfl

theorem require (key : String) : (Task.require path key).run.Orderly path :=
  ask (.require key) id fun _ => rfl

theorem resolveUri (rule : Option Rule) : (Task.resolveUri path rule).run.Orderly path :=
  ask (.resolveUri rule) id fun _ => rfl

theorem replaceContent (text : Text) : (Task.replaceContent path text).run.Orderly path :=
  ask (.replaceContent text) id fun _ => rfl

theorem countEdits (pass : Pass) (count : Nat) :
    (Task.countEdits pass path count).run.Orderly path :=
  ask (.countEdits pass count) (fun _ => .ok ()) fun _ => rfl

theorem fetch (key : String) : (Task.fetch key).run.Orderly path := by
  refine ⟨.lookUp key, fun answer => ⟨nofun, fun _ => ?_⟩⟩
  cases answer with
  | none =>
    rintro e ⟨⟩
    exact ⟨key, rfl⟩
  | some resource => exact done resource

theorem collectEdits (replacement : Planned → Resource → Text) (planned : List Planned) :
    (AssetLoom.collectEdits path replacement planned).run.Orderly path := by
  induction planned with
  | nil => exact done []
  | cons p planned ih =>
    refine bind (require p.key) fun _ => ?_
    exact bind (fetch p.key) fun r => bind ih fun edits => done _

theorem identityPass (options : CompileOptions) :
    (AssetLoom.identityPass options path).run.Orderly path := by
  refine bind (fetch path) fun r => bind (collectEdits ..) fun edits => ?_
  refine bind (countEdits ..) fun _ => ?_
  dsimp only
  split
  · exact replaceContent _
  · exact done ()

theorem relativePass : (AssetLoom.relativePass path).run.Orderly path := by
  refine bind (fetch path) fun r => bind (collectEdits ..) fun edits => ?_
  split
  · exact bind (countEdits ..) fun _ => replaceContent _
  · exact done ()

theorem templateCompiler (options : CompileOptions) (rule : Option Rule) :
    (AssetLoom.templateCompiler options path rule).run.Orderly path := by
  refine bind (emit .preCompile) fun _ => bind (fetch path) fun r => ?_
  cases r.permanent with
  | true =>
    refine bind (emit .compiled) fun _ => ?_
    exact bind (resolveUri rule) fun _ => done ()
  | false =>
    refine bind (identityPass options) fun _ => bind (emit .compiled) fun _ => ?_
    exact bind (resolveUri rule) fun _ => relativePass

theorem assetCompiler (options : CompileOptions) (rule : Option Rule) :
    (AssetLoom.assetCompiler options path rule).run.Orderly path :=
  bind (emit .preCompile) fun _ => bind (emit .compiled) fun _ => resolveUri rule

theorem spares {recipe : Recipe (Except CompileError α)} (h : recipe.Orderly path) {q : String}
    (hq : q ≠ path) : recipe.Spares q := by
  induction recipe with
  | done result => trivial
  | ask request next ih =>
    refine ⟨?_, fun answer => ?_⟩
    · cases h.1 <;> simp [Request.subject?, hq.symm]
    · cases hFailure : request.failure? answer with
      | none => exact ih answer ((h.2 answer).2 hFailure)
      | some e =>
        rw [(h.2 answer).1 e hFailure]
        trivial

end Recipe.Orderly

theorem Compilers.BuiltIn.orderly {compilers : Compilers} (h : compilers.BuiltIn)
    (kind : ResourceKind) (options : CompileOptions) (path : String) (rule : Option Rule) :
    (compilers.forKind kind options path rule).run.Orderly path := by
  rcases h kind with hKind | hKind <;> rw [hKind]
  · exact .templateCompiler options rule
  · exact .assetCompiler options rule

theorem Compilers.BuiltIn.tendsOwn {compilers : Compilers} (h : compilers.BuiltIn)
    (kind : ResourceKind) : (compilers.forKind kind).TendsOwn :=
  fun options path rule _ hq => (h.orderly kind options path rule).spares hq

end AssetLoom
