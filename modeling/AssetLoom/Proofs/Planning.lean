import AssetLoom.Proofs.Passes
import Mathlib.Data.List.Pairwise

/-!
# What a pass asks for, and what it writes

A pass settles its plan before it asks for anything. All that is planned is asked for, in the order
of the text, and all of it is replaced; what is left out is neither asked for nor replaced
(`plan_exact`).

* `Session.asked`: the requests of a recipe while it is carried out.
* `asked_pass`: what a pass asks for is what its plan names, and what it stores are its edits.
-/

namespace AssetLoom

/-! ## Requests -/

/-- The template that a request for a dependency is made for, and the path of the dependency. -/
def Request.required? : Request → Option (String × String)
  | .require referrer target => some (referrer, target)
  | _ => none

/-- The resource that a request gives a new content, and the text of it. -/
def Request.replaced? : Request → Option (String × Text)
  | .replaceContent path text => some (path, text)
  | _ => none

namespace Session

variable (session : Session) (compile : String → Option Rule → Build → Outcome × Build)

/-- The requests of a recipe while it is carried out, in their order. -/
def asked {α : Type} : Recipe α → Build → List Request
  | .done _, _ => []
  | .ask request next, build =>
    let (reply, after) := session.answer compile request build
    request :: asked (next reply) after

theorem asked_bind {α β : Type} (x : Recipe α) (f : α → Recipe β) (build : Build) :
    session.asked compile (x >>= f) build = session.asked compile x build ++
      session.asked compile (f (session.run compile x build).1)
        (session.run compile x build).2 := by
  induction x generalizing build with
  | done a => rfl
  | ask request next ih =>
    rw [Recipe.ask_bind, asked, asked, run]
    exact congrArg (request :: ·) (ih _ _)

variable {session compile}

/-- A task whose first part succeeds asks for what its two parts ask for. -/
theorem asked_task_bind {α β : Type} {x : Task α} {f : α → Task β} {build middle : Build} {a : α}
    (h : session.run compile x.run build = (.ok a, middle)) :
    session.asked compile (x >>= f).run build =
      session.asked compile x.run build ++ session.asked compile (f a).run middle := by
  rw [ExceptT.run_bind, asked_bind, h]

theorem asked_task_fetch (path : String) (build : Build) :
    session.asked compile (Task.fetch path).run build = [.lookUp path] := by
  simp only [Task.fetch, ExceptT.run_mk, asked, answer]
  cases build.resources.get? path <;> rfl

/-! ## Passes -/

/-- To collect edits is to ask for all that is planned, and for no new content. -/
theorem asked_collectEdits {path : String} {replacement : Planned → Resource → Text}
    {planned : List Planned} {build last : Build} {edits : List Edit}
    (h : session.run compile (collectEdits path replacement planned).run build =
      (.ok edits, last)) :
    (session.asked compile (collectEdits path replacement planned).run build).filterMap
        Request.required? = planned.map (fun p => (path, p.key)) ∧
      (session.asked compile (collectEdits path replacement planned).run build).filterMap
        Request.replaced? = [] ∧
      edits.map Edit.span = planned.map Planned.region := by
  induction planned generalizing build edits with
  | nil =>
    rw [collectEdits, run_task_pure] at h
    cases h
    exact ⟨rfl, rfl, rfl⟩
  | cons p planned ih =>
    obtain ⟨middle, r, others, hRequire, hGet, hOthers, rfl⟩ :=
      run_collectEdits_cons_eq_ok_iff.mp h
    obtain ⟨hRequired, hReplaced, hSpans⟩ := ih hOthers
    have hAsked : session.asked compile (collectEdits path replacement (p :: planned)).run build =
        .require path p.key :: .lookUp p.key ::
          session.asked compile (collectEdits path replacement planned).run middle := by
      rw [← run_task_require] at hRequire
      rw [collectEdits, asked_task_bind hRequire,
        asked_task_bind (run_task_fetch_eq_ok_iff.mpr ⟨hGet, rfl⟩), asked_task_fetch,
        asked_task_bind hOthers]
      simp [Task.require, asked]
    rw [hAsked]
    exact ⟨congrArg ((path, p.key) :: ·) hRequired, hReplaced, congrArg (p.region :: ·) hSpans⟩

/-- One pass over a template. -/
def passTask (options : CompileOptions) (path : String) : Pass → Task Unit
  | .identity => identityPass options path
  | .relative => relativePass path

/-- The text that a pass plans for. -/
def passText (options : CompileOptions) : Pass → Text → Text
  | .identity, t => searchedText options t
  | .relative, t => t

theorem asked_identityPass {options : CompileOptions} {path : String} {build last : Build}
    {r : Resource} (hGet : build.resources.get? path = some r)
    (h : session.run compile (identityPass options path).run build = (.ok (), last)) :
    ∃ edits middle, session.run compile (collectEdits path identityReplacement
        (identityPlan options path r.text)).run build = (.ok edits, middle) ∧
      session.asked compile (identityPass options path).run build =
        .lookUp path :: session.asked compile (collectEdits path identityReplacement
          (identityPlan options path r.text)).run build ++
        .countEdits .identity path edits.length ::
          if applyEdits (searchedText options r.text) edits ≠ r.text then
            [.replaceContent path (applyEdits (searchedText options r.text) edits)]
          else [] := by
  obtain ⟨edits, middle, hEdits, -⟩ := (run_identityPass_eq_ok_iff hGet).mp h
  refine ⟨edits, middle, hEdits, ?_⟩
  unfold identityPlan at hEdits ⊢
  rw [identityPass, asked_task_bind (run_task_fetch_eq_ok_iff.mpr ⟨hGet, rfl⟩), asked_task_fetch]
  dsimp only
  rw [asked_task_bind hEdits, asked_task_bind (run_task_countEdits ..)]
  split <;> simp [Task.countEdits, Task.replaceContent, asked]

theorem asked_relativePass {path : String} {build last : Build} {r : Resource}
    (hGet : build.resources.get? path = some r)
    (h : session.run compile (relativePass path).run build = (.ok (), last)) :
    ∃ edits middle, session.run compile (collectEdits path
        (relativeReplacement (r.uri.getD path)) (relativePlan path r.text)).run build =
          (.ok edits, middle) ∧
      session.asked compile (relativePass path).run build =
        .lookUp path :: session.asked compile (collectEdits path
          (relativeReplacement (r.uri.getD path)) (relativePlan path r.text)).run build ++
        if edits ≠ [] then
          [.countEdits .relative path edits.length,
            .replaceContent path (applyEdits r.text edits)]
        else [] := by
  obtain ⟨edits, middle, hEdits, -⟩ := (run_relativePass_eq_ok_iff hGet).mp h
  refine ⟨edits, middle, hEdits, ?_⟩
  unfold relativePlan at hEdits ⊢
  rw [relativePass, asked_task_bind (run_task_fetch_eq_ok_iff.mpr ⟨hGet, rfl⟩), asked_task_fetch]
  dsimp only
  rw [asked_task_bind hEdits]
  split
  · rw [asked_task_bind (run_task_countEdits ..)]
    simp [Task.countEdits, Task.replaceContent, asked]
  · simp [asked]

/-- A pass that completes asks for what its plan names, one dependency after the other. The text
that it stores is the one that it planned for with an edit for each of them. -/
theorem asked_pass {options : CompileOptions} {path : String} {pass : Pass} {build last : Build}
    {r : Resource} (hGet : build.resources.get? path = some r)
    (h : session.run compile (passTask options path pass).run build = (.ok (), last)) :
    let t := passText options pass r.text
    let asked := session.asked compile (passTask options path pass).run build
    asked.filterMap Request.required? = (plan t pass path).map (fun p => (path, p.key)) ∧
      ∃ edits, edits.map Edit.span = (plan t pass path).map Planned.region ∧
        (asked.filterMap Request.replaced? = [(path, applyEdits t edits)] ∨
          asked.filterMap Request.replaced? = [] ∧ applyEdits t edits = r.text) := by
  cases pass with
  | identity =>
    obtain ⟨edits, middle, hEdits, hAsked⟩ := asked_identityPass hGet h
    obtain ⟨hRequired, hReplaced, hSpans⟩ := asked_collectEdits hEdits
    dsimp only [passTask, passText]
    simp only [hAsked, List.filterMap_append, List.filterMap_cons, Request.required?,
      Request.replaced?, hRequired, hReplaced]
    by_cases hSame : applyEdits (searchedText options r.text) edits = r.text
    · rw [if_neg (not_not.mpr hSame)]
      exact ⟨List.append_nil _, edits, hSpans, .inr ⟨rfl, hSame⟩⟩
    · rw [if_pos hSame]
      exact ⟨List.append_nil _, edits, hSpans, .inl rfl⟩
  | relative =>
    obtain ⟨edits, middle, hEdits, hAsked⟩ := asked_relativePass hGet h
    obtain ⟨hRequired, hReplaced, hSpans⟩ := asked_collectEdits hEdits
    dsimp only [passTask, passText]
    simp only [hAsked, List.filterMap_append, List.filterMap_cons, Request.required?,
      Request.replaced?, hRequired, hReplaced]
    by_cases hNone : edits = []
    · rw [if_neg (not_not.mpr hNone)]
      refine ⟨List.append_nil _, edits, hSpans, .inr ⟨rfl, ?_⟩⟩
      rw [hNone]
      exact (spliced_applyEdits ⟨by simp, .nil⟩).eq_of_nil
    · rw [if_pos hNone]
      exact ⟨List.append_nil _, edits, hSpans, .inl rfl⟩

end Session

/-! ## Plans -/

/-- What starts at the same byte is not planned twice: the regions of a plan start one behind the
other. -/
theorem pairwise_plan_start (t : Text) (pass : Pass) (referrer : String) :
    (plan t pass referrer).Pairwise fun a b =>
      a.region.start < b.region.start ∧ a.region.stop ≤ b.region.start := by
  have hFull : (plan t pass referrer).Pairwise fun a b => a.region.start = b.region.start →
      a.region.start < a.region.stop ∧ b.region.start < b.region.stop :=
    pairwise_disjoint_of_symm _ (fun h hEq => (h hEq.symm).symm)
      (pairwise_region_start t pass referrer)
  refine ((pairwise_plan t pass referrer).and hFull).imp_of_mem ?_
  rintro a b ha - ⟨hPrecedes, hSame⟩
  have hLe := (plan_within ha).start_le_stop
  unfold Span.Precedes at hPrecedes
  exact ⟨by omega, hPrecedes⟩

/-- Edits for the regions of a plan fit the text. -/
theorem fits_of_regions {t : Text} {pass : Pass} {referrer : String} {edits : List Edit}
    (h : edits.map Edit.span = (plan t pass referrer).map Planned.region) : Fits t edits where
  within edit hEdit := by
    have hSpan : edit.span ∈ (plan t pass referrer).map Planned.region :=
      h ▸ List.mem_map_of_mem hEdit
    obtain ⟨planned, hPlanned, hRegion⟩ := List.mem_map.mp hSpan
    exact hRegion ▸ plan_within hPlanned
  order := by
    have hOrder := List.pairwise_map.mpr (pairwise_plan t pass referrer)
    rw [← h] at hOrder
    exact List.pairwise_map.mp hOrder

/-- What names a resource and is left out of a plan overlaps something planned that starts no
later. -/
theorem overlaps_of_notMem_plan {t : Text} {pass : Pass} {referrer : String}
    {directive : Directive} {p : Planned} (hFound : directive ∈ Directive.scan pass t)
    (hLocal : Planned.ofDirective? referrer directive = some p) (hOut : p ∉ plan t pass referrer) :
    ∃ kept ∈ plan t pass referrer,
      kept.region.start ≤ p.region.start ∧ kept.region.overlaps p.region = true :=
  overlaps_of_notMem_disjoint (List.mem_filterMap.mpr ⟨directive, hFound, hLocal⟩) hOut

/-- What overlaps something planned, and is something else, is not planned. -/
theorem notMem_plan_of_overlaps {t : Text} {pass : Pass} {referrer : String} {kept p : Planned}
    (hKept : kept ∈ plan t pass referrer) (hOther : p ≠ kept)
    (hOverlaps : kept.region.overlaps p.region = true) : p ∉ plan t pass referrer := by
  intro hMem
  have : Std.Symm fun a b : Planned => a.region.overlaps b.region = false :=
    ⟨fun a b h => (Span.overlaps_comm ..).trans h⟩
  have hApart := ((pairwise_plan t pass referrer).imp Span.Precedes.not_overlaps).forall
    hKept hMem hOther.symm
  rw [hApart] at hOverlaps
  cases hOverlaps

/-- A script or a link whose content is wanted in place is replaced as a whole. -/
theorem Planned.region_of_inline {referrer : String} {directive : Directive} {p : Planned}
    (h : Planned.ofDirective? referrer directive = some p) (hInline : p.inline = true)
    (hKind : p.directive.kind = .script ∨ p.directive.kind = .link) :
    p.region = p.directive.span := by
  unfold ofDirective? at h
  split at h
  · cases h
    dsimp only at hInline hKind ⊢
    rw [if_pos]
    rcases hKind with hKind | hKind <;> simp [hInline, hKind]
  · cases h

theorem directive_of_mem_plan {t : Text} {pass : Pass} {referrer : String} {p : Planned}
    (h : p ∈ plan t pass referrer) : p.directive ∈ Directive.scan pass t ∧
      Planned.ofDirective? referrer p.directive = some p := by
  obtain ⟨directive, hFound, hLocal⟩ := List.mem_filterMap.mp (mem_of_mem_disjoint h)
  obtain ⟨rfl, -⟩ := Planned.ofDirective?_eq_some hLocal
  exact ⟨hFound, hLocal⟩

/-- Planning is exact, whatever the text. The regions of a plan are parts of the text, in ascending
order, and no two of them share a byte, so edits for them are all applied, whatever they write. A
pass that completes asks for exactly the dependencies that are planned, and edits exactly their
regions. What is left out overlaps something planned that starts no later; and no other directive
that overlaps a script or a link whose content is wanted in place is planned. -/
theorem plan_exact (t : Text) (pass : Pass) (referrer : String) :
    (plan t pass referrer).Pairwise (fun a b =>
      a.region.start < b.region.start ∧ a.region.stop ≤ b.region.start) ∧
    (∀ p ∈ plan t pass referrer, p.region.Within t) ∧
    (∀ replacement : Planned → Text,
      let edits := (plan t pass referrer).map fun p => ⟨p.region, replacement p⟩
      disjoint Edit.span edits = edits ∧
        ∃ output, applyEdits? t edits = some output ∧ Spliced 0 t edits output) ∧
    (∀ (session : Session) (compile : String → Option Rule → Build → Outcome × Build)
      (options : CompileOptions) (build last : Build) (r : Resource),
      build.resources.get? referrer = some r → Session.passText options pass r.text = t →
      session.run compile (Session.passTask options referrer pass).run build = (.ok (), last) →
      let asked := session.asked compile (Session.passTask options referrer pass).run build
      asked.filterMap Request.required? =
          (plan t pass referrer).map (fun p => (referrer, p.key)) ∧
        ∃ edits output, edits.map Edit.span = (plan t pass referrer).map Planned.region ∧
          Spliced 0 t edits output ∧
          (asked.filterMap Request.replaced? = [(referrer, output)] ∨
            asked.filterMap Request.replaced? = [] ∧ output = r.text)) ∧
    (∀ directive ∈ Directive.scan pass t, ∀ p,
      Planned.ofDirective? referrer directive = some p → p ∉ plan t pass referrer →
      ∃ kept ∈ plan t pass referrer,
        kept.region.start ≤ p.region.start ∧ kept.region.overlaps p.region = true) ∧
    ∀ kept ∈ plan t pass referrer, kept.inline = true →
      kept.directive.kind = .script ∨ kept.directive.kind = .link →
      kept.region = kept.directive.span ∧
        ∀ directive ∈ Directive.scan pass t, directive ≠ kept.directive → ∀ p,
          Planned.ofDirective? referrer directive = some p →
          kept.region.overlaps p.region = true → p ∉ plan t pass referrer := by
  refine ⟨pairwise_plan_start t pass referrer, fun p => plan_within, ?_, ?_, ?_, ?_⟩
  · intro replacement
    exact (fits_plan t pass referrer replacement).applyEdits?_eq_some
  · intro session compile options build last r hGet hText hRun
    obtain ⟨hRequired, edits, hSpans, hStored⟩ := Session.asked_pass hGet hRun
    rw [hText] at hRequired hSpans hStored
    exact ⟨hRequired, edits, applyEdits t edits, hSpans,
      spliced_applyEdits (fits_of_regions hSpans), hStored⟩
  · intro directive hFound p hLocal hOut
    exact overlaps_of_notMem_plan hFound hLocal hOut
  · intro kept hKept hInline hKind
    refine ⟨Planned.region_of_inline (directive_of_mem_plan hKept).2 hInline hKind, ?_⟩
    intro directive hFound hOther p hLocal hOverlaps
    refine notMem_plan_of_overlaps hKept ?_ hOverlaps
    rintro rfl
    exact hOther (Planned.ofDirective?_eq_some hLocal).1.symm

/-- A page with a script whose content is wanted in place: what the script requires is not asked
for. -/
theorem plan_exact_script :
    let page : Resource :=
      { path := "a.tpl"
        kind := .template
        content := ("<script src=\"b.js?__inline\">\x7b\x7bbrisk_require_js name=\"c.js\"\x7d\x7d"
          ++ "</script>").toUTF8
        state := .compiling }
    let script : Resource :=
      { path := "b.js", kind := .script, content := "-".toUTF8, state := .compiled }
    let build : Build :=
      { resources :=
          { entries := [page, script, { path := "c.js", kind := .script, content := .empty }]
            paths_nodup := by decide }
        stack := [page.path] }
    (Session.asked {} (Session.compile {}) (Session.passTask {} page.path .identity).run
        build).filterMap Request.required? = [(page.path, script.path)] ∧
      ∀ directive ∈ Directive.scan .identity page.text, ∀ p,
        Planned.ofDirective? page.path directive = some p → p.key = "c.js" →
        ∃ kept ∈ plan page.text .identity page.path,
          kept.region.start ≤ p.region.start ∧ kept.region.overlaps p.region = true := by
  intro page script build
  have hScan : Directive.scan .identity page.text =
      Directive.scanEmbeds page.text ++ Directive.scanRequires page.text :=
    List.mergeSort_of_pairwise (by decide +kernel)
  have hPlan : plan page.text .identity page.path = [
      { directive :=
          { kind := .script
            address := "b.js?__inline".toList
            addressSpan := ⟨13, 26⟩
            span := ⟨0, 69⟩
            quote := '"' }
        key := script.path
        inline := true
        region := ⟨0, 69⟩ }] := by
    rw [plan, hScan, disjoint, List.mergeSort_of_pairwise (by decide +kernel)]
    decide +kernel
  have hGet : build.resources.get? page.path = some page := rfl
  have hRun : ∃ last, Session.run {} (Session.compile {})
      (Session.passTask {} page.path .identity).run build = (.ok (), last) := by
    have hEdits : ∃ edits, Session.run {} (Session.compile {}) (collectEdits page.path
        identityReplacement (identityPlan {} page.path page.text)).run build =
          (.ok edits, build) := by
      rw [show identityPlan {} page.path page.text = _ from hPlan]
      exact ⟨_, Session.run_collectEdits_cons_eq_ok_iff.mpr
        ⟨build, script, [], rfl, rfl, rfl, rfl⟩⟩
    obtain ⟨edits, hEdits⟩ := hEdits
    obtain ⟨last, hLast, -⟩ := Session.run_storeIdentity {} (Session.compile {})
      (build.write (.edits .identity page.path edits.length)) hGet
      (applyEdits (searchedText {} page.text) edits)
    exact ⟨last, (Session.run_identityPass_eq_ok_iff hGet).mpr ⟨edits, build, hEdits, hLast⟩⟩
  obtain ⟨-, -, -, hPass, hOut, -⟩ := plan_exact page.text .identity page.path
  refine ⟨?_, ?_⟩
  · obtain ⟨last, hLast⟩ := hRun
    have hRequired := (hPass {} _ {} build last page hGet rfl hLast).1
    rwa [hPlan] at hRequired
  · intro directive hFound p hLocal hKey
    refine hOut directive hFound p hLocal fun hMem => ?_
    rw [hPlan] at hMem
    rw [List.mem_singleton.mp hMem] at hKey
    revert hKey
    decide

end AssetLoom
