import AssetLoom.Session

/-!
# Two builds side by side

Two runs of a session are compared through a relation between their builds. If the builds agree on
some paths, and equal changes of the resources there keep the relation (`Build.IsPairing`), then
what a session does to these resources alone comes to the same in both runs: it emits an event,
resolves a URI or replaces a content with the same outcome, and the relation holds afterwards.
-/

namespace AssetLoom

/-- Related builds have the same journal and the same resources for the paths in `S`, and stay
related by entries in the journal and by equal changes for these paths. -/
structure Build.IsPairing (S : String → Prop) (R : Build → Build → Prop) : Prop where
  get?_eq : ∀ {a b path}, R a b → S path → a.resources.get? path = b.resources.get? path
  journal_eq : ∀ {a b}, R a b → a.journal = b.journal
  write : ∀ {a b}, R a b → ∀ entry, R (a.write entry) (b.write entry)
  modify : ∀ {a b path}, R a b → S path → ∀ f hf,
    R { a with resources := a.resources.modify path f hf }
      { b with resources := b.resources.modify path f hf }

/-- The same result, and related builds. -/
def Session.Paired {α : Type} (R : Build → Build → Prop) (x y : α × Build) : Prop :=
  x.1 = y.1 ∧ R x.2 y.2

namespace Session

variable {S : String → Prop} {R : Build → Build → Prop}

/-- What the first of two paired runs comes to, the second one does. -/
theorem Paired.exists_eq {α : Type} {x y : α × Build} {result : α} {last : Build}
    (h : Paired R x y) (hx : x = (result, last)) : ∃ last', y = (result, last') ∧ R last last' := by
  subst hx
  exact ⟨y.2, Prod.ext h.1.symm rfl, h.2⟩

section

variable (hR : Build.IsPairing S R) {a b : Build}
include hR

theorem notify_paired (event : Event) (resource : Resource) (number : Nat)
    (observers : List Observer) (h : R a b) :
    Paired R (notify event resource number observers a)
      (notify event resource number observers b) := by
  induction observers generalizing number a b with
  | nil => exact ⟨rfl, h⟩
  | cons observer rest ih =>
    simp only [notify, hR.journal_eq h]
    split
    · split
      · exact ⟨rfl, hR.write h _⟩
      · exact ih _ (hR.write h _)
    · exact ih _ h

variable {path : String}

theorem emit_paired (session : Session) (event : Event) (hPath : S path) (h : R a b) :
    Paired R (session.emit event path a) (session.emit event path b) := by
  simp only [emit, hR.get?_eq h hPath]
  split
  · exact ⟨rfl, h⟩
  · exact notify_paired hR _ _ _ _ (hR.write h _)

theorem resolveUri_paired (session : Session) (rule : Option Rule) (hPath : S path) (h : R a b) :
    Paired R (session.resolveUri path rule a) (session.resolveUri path rule b) := by
  have hFirst := emit_paired hR session .preResolve hPath h
  unfold resolveUri
  generalize session.emit .preResolve path a = x at hFirst ⊢
  generalize session.emit .preResolve path b = y at hFirst ⊢
  obtain ⟨outcome, told⟩ := x
  obtain ⟨outcome', told'⟩ := y
  obtain ⟨rfl, hTold⟩ := hFirst
  cases outcome with
  | error e => exact ⟨rfl, hTold⟩
  | ok =>
    simp only
    split
    · exact ⟨rfl, hTold⟩
    · exact emit_paired hR session _ hPath (hR.modify (hR.write hTold _) hPath _ _)

theorem replaceContent_paired (text : Text) (hPath : S path) (h : R a b) :
    Paired R (replaceContent path text a) (replaceContent path text b) := by
  simp only [replaceContent, hR.get?_eq h hPath]
  split
  · exact ⟨rfl, h⟩
  · exact ⟨rfl, hR.modify h hPath _ _⟩

end

end Session

end AssetLoom
