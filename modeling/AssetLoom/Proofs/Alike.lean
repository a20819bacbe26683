import AssetLoom.Proofs.Paired

/-!
# Registries in another order

A registry lists its resources in some order. A session never depends on it: from builds that
differ only in this order (`Build.Alike`) whatever a session does comes to the same result, writes
the same journal and ends in builds that differ only in the order again
(`Session.compileAll_alike`).
-/

namespace AssetLoom

/-- Two builds are alike if they differ at most in the order of the resources. -/
structure Build.Alike (a b : Build) : Prop where
  entries : a.resources.entries.Perm b.resources.entries
  stack : a.stack = b.stack
  journal : a.journal = b.journal

/-- The same result, and builds that are alike. -/
def Session.SameResult {α : Type} (x y : α × Build) : Prop :=
  x.1 = y.1 ∧ x.2.Alike y.2

namespace Build.Alike

variable {a b : Build}

theorem get?_eq (h : a.Alike b) : a.resources.get? = b.resources.get? := by
  funext path
  apply Option.ext
  intro r
  simp only [Registry.get?_eq_some_iff, h.entries.mem_iff]

theorem size_eq (h : a.Alike b) : a.resources.size = b.resources.size :=
  h.entries.length_eq

theorem templatePaths_eq (h : a.Alike b) :
    Session.templatePaths a.resources = Session.templatePaths b.resources := by
  have hPaths : a.resources.paths = b.resources.paths := by
    have hSorted : ∀ l : List String,
        (l.mergeSort fun x y => x ≤ y).Pairwise fun x y => decide (x ≤ y) = true := by
      intro l
      apply List.pairwise_mergeSort
      · intro x y z hxy hyz
        rw [decide_eq_true_eq] at *
        exact String.le_trans hxy hyz
      · intro x y
        rw [Bool.or_eq_true, decide_eq_true_eq, decide_eq_true_eq]
        exact String.le_total x y
    refine List.Perm.eq_of_pairwise ?_ (hSorted _) (hSorted _) ?_
    · intro x y _ _ hxy hyx
      rw [decide_eq_true_eq] at *
      exact String.le_antisymm hxy hyx
    · exact (List.mergeSort_perm ..).trans
        ((h.entries.map Resource.path).trans (List.mergeSort_perm ..).symm)
  rw [Session.templatePaths, hPaths, h.get?_eq, Session.templatePaths]

theorem write (h : a.Alike b) (entry : Entry) : (a.write entry).Alike (b.write entry) :=
  ⟨h.entries, h.stack, by simp [Build.write, h.journal]⟩

theorem enter (h : a.Alike b) (path : String) (kind : ResourceKind) :
    (a.enter path kind).Alike (b.enter path kind) :=
  ⟨h.entries.map _, by simp [Build.enter, h.stack], by simp [Build.enter, h.journal]⟩

theorem leave (h : a.Alike b) (path : String) (outcome : Outcome) :
    (a.leave path outcome).Alike (b.leave path outcome) :=
  ⟨h.entries.map _, by simp [Build.leave, h.stack], h.journal⟩

end Build.Alike

theorem Build.alike_isPairing : IsPairing (fun _ => True) Alike where
  get?_eq h _ := congrFun h.get?_eq _
  journal_eq h := h.journal
  write h entry := h.write entry
  modify h _ _ _ := ⟨h.entries.map _, h.stack, h.journal⟩

namespace Session

variable {a b : Build}

section

variable {compile : String → Option Rule → Build → Outcome × Build}
  (hCompile : ∀ path rule {a b : Build}, a.Alike b →
    SameResult (compile path rule a) (compile path rule b))
include hCompile

theorem requireBy_alike (session : Session) (referrer target : String) (h : a.Alike b) :
    SameResult (session.requireBy compile referrer target a)
      (session.requireBy compile referrer target b) := by
  simp only [requireBy, h.get?_eq]
  split
  · exact ⟨rfl, h⟩
  · split
    · exact ⟨rfl, h⟩
    · split
      · exact ⟨rfl, h⟩
      · exact hCompile _ _ (h.write _)

theorem compileEachBy_alike (session : Session) (paths : List String) (h : a.Alike b) :
    SameResult (session.compileEachBy compile paths a)
      (session.compileEachBy compile paths b) := by
  induction paths generalizing a b with
  | nil => exact ⟨rfl, h⟩
  | cons path rest ih =>
    have hFirst := hCompile path (session.rules.find? path) h
    unfold compileEachBy
    generalize compile path (session.rules.find? path) a = x at hFirst ⊢
    generalize compile path (session.rules.find? path) b = y at hFirst ⊢
    obtain ⟨outcome, after⟩ := x
    obtain ⟨outcome', after'⟩ := y
    obtain ⟨rfl, hAfter⟩ := hFirst
    cases outcome with
    | ok => exact ih hAfter
    | error e => exact ⟨rfl, hAfter⟩

theorem compileAllBy_alike (session : Session) (h : a.Alike b) :
    SameResult (session.compileAllBy compile a) (session.compileAllBy compile b) := by
  simp only [compileAllBy, h.templatePaths_eq]
  exact compileEachBy_alike hCompile session _ (h.write _)

theorem answer_alike (session : Session) (request : Request) (h : a.Alike b) :
    SameResult (session.answer compile request a) (session.answer compile request b) := by
  cases request with
  | lookUp path => exact ⟨congrFun h.get?_eq path, h⟩
  | emit event path => exact emit_paired Build.alike_isPairing session event trivial h
  | compile path rule => exact hCompile path rule h
  | compileRoot path => exact hCompile path _ h
  | compileAll => exact compileAllBy_alike hCompile session h
  | require referrer target => exact requireBy_alike hCompile session referrer target h
  | resolveUri path rule => exact resolveUri_paired Build.alike_isPairing session rule trivial h
  | replaceContent path text => exact replaceContent_paired Build.alike_isPairing text trivial h
  | countEdits pass path count => exact ⟨rfl, h.write _⟩

theorem run_alike {α : Type} (session : Session) (recipe : Recipe α) (h : a.Alike b) :
    SameResult (session.run compile recipe a) (session.run compile recipe b) := by
  induction recipe generalizing a b with
  | done result => exact ⟨rfl, h⟩
  | ask request next ih =>
    obtain ⟨hReply, hBuild⟩ := answer_alike hCompile session request h
    simp only [run, hReply]
    exact ih _ hBuild

end

theorem compileWithin_alike (session : Session) (depth : Nat) (path : String)
    (rule : Option Rule) (h : a.Alike b) :
    SameResult (session.compileWithin depth path rule a)
      (session.compileWithin depth path rule b) := by
  induction depth generalizing path rule a b with
  | zero =>
    simp only [compileWithin, h.get?_eq, Build.circle, h.stack]
    repeat' split
    all_goals exact ⟨rfl, h⟩
  | succ depth ih =>
    simp only [compileWithin, h.get?_eq, Build.circle, h.stack]
    split
    · exact ⟨rfl, h⟩
    · next r hGet =>
      split
      · exact ⟨rfl, h⟩
      · exact ⟨rfl, h⟩
      · obtain ⟨hOutcome, hBuild⟩ := run_alike (fun path rule _ _ => ih path rule) session
          (session.compilers.forKind r.kind session.options path rule).run (h.enter path r.kind)
        rw [hOutcome]
        exact ⟨rfl, hBuild.leave _ _⟩

theorem compile_alike (session : Session) (path : String) (rule : Option Rule)
    (h : a.Alike b) : SameResult (session.compile path rule a) (session.compile path rule b) := by
  rw [compile, compile, h.size_eq]
  exact compileWithin_alike session _ path rule h

/-- To compile all templates comes to the same, in whatever order the resources are listed. -/
theorem compileAll_alike (session : Session) (h : a.Alike b) :
    SameResult (session.compileAll a) (session.compileAll b) :=
  compileAllBy_alike (fun path rule _ _ => compile_alike session path rule) session h

end Session

end AssetLoom
