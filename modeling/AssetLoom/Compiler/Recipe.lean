import AssetLoom.Observer
import AssetLoom.Rule
/-!
# Recipes

A compiler does not hold the registry. What it does to a resource is a recipe: a sequence of
requests to the build, each of which may depend on the answers to those before it.

* `Request`: what can be asked of a build, and `Request.Answer`: what it answers.
* `Recipe`: requests in sequence; a monad.
* `Task`: a recipe that may fail.
-/

namespace AssetLoom

/-- What can be asked of a build. -/
inductive Request
  /-- The resource registered for a path. -/
  | lookUp (path : String)
  /-- Tell observers of an event. -/
  | emit (event : Event) (path : String)
  /-- Compile a resource by a given rule. -/
  | compile (path : String) (rule : Option Rule)
  /-- Compile a resource by the rule that applies to it. -/
  | compileRoot (path : String)
  /-- Compile all templates. -/
  | compileAll
  /-- Compile the resource `target` that is referred to in `referrer`. -/
  | require (referrer target : String)
  /-- Resolve the output URI of a resource. -/
  | resolveUri (path : String) (rule : Option Rule)
  /-- Replace the content of a resource. -/
  | replaceContent (path : String) (text : Text)
  /-- Write down the number of edits of a pass. -/
  | countEdits (pass : Pass) (path : String) (count : Nat)

/-- Success, or the error that stops a compile. -/
abbrev Outcome := Except CompileError Unit

/-- The type of the answer to a request. -/
def Request.Answer : Request → Type
  | lookUp _ => Option Resource
  | countEdits _ _ _ => Unit
  | _ => Outcome

/-- Requests in sequence, and a result. -/
inductive Recipe (α : Type) : Type
  | done (result : α)
  | ask (request : Request) (next : request.Answer → Recipe α)

namespace Recipe

/-- Goes on with the result of a recipe. -/
def bind {α β : Type} : Recipe α → (α → Recipe β) → Recipe β
  | done a, f => f a
  | ask request next, f => ask request fun answer => (next answer).bind f

instance : Monad Recipe where
  pure := done
  bind := bind

@[simp]
theorem pure_eq {α : Type} (a : α) : (pure a : Recipe α) = done a := rfl

@[simp]
theorem done_bind {α β : Type} (a : α) (f : α → Recipe β) : (done a >>= f) = f a := rfl

@[simp]
theorem ask_bind {α β : Type} (request : Request) (next : request.Answer → Recipe α)
    (f : α → Recipe β) : (ask request next >>= f) = ask request fun answer => next answer >>= f :=
  rfl

theorem bind_done {α : Type} (x : Recipe α) : (x >>= done) = x := by
  induction x with
  | done a => rfl
  | ask request next ih => simp [ih]

theorem bind_assoc {α β γ : Type} (x : Recipe α) (f : α → Recipe β) (g : β → Recipe γ) :
    (x >>= f >>= g) = x >>= fun a => f a >>= g := by
  induction x with
  | done a => rfl
  | ask request next ih => simp [ih]

instance : LawfulMonad Recipe :=
  LawfulMonad.mk' Recipe bind_done (fun _ _ => rfl) bind_assoc

end Recipe

/-- A recipe that may fail. -/
abbrev Task := ExceptT CompileError Recipe

namespace Task

/-- Tells observers of an event. -/
def emit (event : Event) (path : String) : Task Unit :=
  ExceptT.mk (.ask (.emit event path) .done)

/-- Compiles a resource by the rule that applies to it. -/
def compileRoot (path : String) : Task Unit :=
  ExceptT.mk (.ask (.compileRoot path) .done)

/-- Compiles the resource that `referrer` refers to. -/
def require (referrer target : String) : Task Unit :=
  ExceptT.mk (.ask (.require referrer target) .done)

/-- Resolves the output URI of a resource. -/
def resolveUri (path : String) (rule : Option Rule) : Task Unit :=
  ExceptT.mk (.ask (.resolveUri path rule) .done)

/-- Replaces the content of a resource. -/
def replaceContent (path : String) (text : Text) : Task Unit :=
  ExceptT.mk (.ask (.replaceContent path text) .done)

/-- Writes down the number of edits of a pass. -/
def countEdits (pass : Pass) (path : String) (count : Nat) : Task Unit :=
  ExceptT.mk (.ask (.countEdits pass path count) fun _ => .done (.ok ()))

/-- The resource registered for a path. -/
def fetch (path : String) : Task Resource :=
  ExceptT.mk (.ask (.lookUp path) fun
    | some resource => .done (.ok resource)
    | none => .done (.error (.unknownRoot path)))

end Task

/-- What is set for a build as a whole. -/
structure CompileOptions where
  /-- Whether comments are removed from templates. -/
  stripComments : Bool := false
  deriving DecidableEq, Repr

/-- Compiles the resource with the given path by the given rule. -/
abbrev Compiler := CompileOptions → String → Option Rule → Task Unit

end AssetLoom
