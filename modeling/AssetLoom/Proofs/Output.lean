import AssetLoom.Proofs.Completion

/-!
# The output of a compile

What a root that compiles leaves behind: every resource that has been compiled on the way has the
URI of its rule, and every template the text that its two passes write with the resources as they
are in the end.
-/

namespace AssetLoom

namespace Session

/-- When a root compiles, whatever has been compiled before and whatever the observers do: a
resource that was pending before and is compiled then has the URI of its rule. If it is a template
that is not permanent, its text is the one from before, without comments if they are removed, with
the regions of the first plan and then those of the second one replaced, and no other byte
changed. What is written in their place is read off the resources as they are in the end, and all
that was planned is compiled. -/
theorem compileRoot_output (session : Session) (hBuiltIn : session.compilers.BuiltIn)
    {root : String} {build last : Build} (hOk : session.compileRoot root build = (.ok (), last))
    {path : String} {before after : Resource}
    (hBefore : build.resources.get? path = some before) (hPending : before.state = .pending)
    (hAfter : last.resources.get? path = some after) (hCompiled : after.state = .compiled) :
    ∃ uri, uriBy (session.rules.find? path) path = .ok uri ∧ after.uri = some uri ∧
      (before.permanent = false →
        session.compilers.forKind before.kind = templateCompiler →
        ∃ middle,
          Spliced 0 (searchedText session.options before.text)
            (passEdits identityReplacement (View.resource last.resources.get?)
              (identityPlan session.options path before.text)) middle ∧
          Spliced 0 middle
            (passEdits (relativeReplacement uri) (View.resource last.resources.get?)
              (relativePlan path middle)) after.text ∧
          after.content = relativeContent path uri (View.resource last.resources.get?)
            (identityContent session.options path (View.resource last.resources.get?)
              before.content) ∧
          ∀ planned ∈ identityPlan session.options path before.text ++ relativePlan path middle,
            last.resources.state? planned.key = some .compiled) := by
  obtain rfl : before.path = path := Registry.path_of_get? hBefore
  rcases (compileRoot_completes hBuiltIn hOk).advances before.path with
    hSame | ⟨r, keys, made, hGet, -, hMade, hMakes, hKeys⟩
  · rw [hSame, hBefore] at hAfter
    cases hAfter
    simp [hPending] at hCompiled
  · rw [hBefore] at hGet
    cases hGet
    rw [hAfter] at hMade
    cases hMade
    cases hMakes with
    | @plain uri hPlain hUri =>
      refine ⟨uri, hUri, rfl, ?_⟩
      intro hPermanent hTemplate
      rcases hPlain with hPlain | hPlain
      · simp [hPlain] at hPermanent
      · exact absurd (hTemplate.symm.trans hPlain) templateCompiler_ne_assetCompiler
    | @template uri hPermanent hTemplate hUri =>
      refine ⟨uri, hUri, rfl, ?_⟩
      intro _ _
      refine ⟨_, spliced_identityText .., ?_, rfl, ?_⟩
      · simp only [Resource.text, decode_relativeContent, decode_identityContent]
        exact spliced_relativeText ..
      · intro planned hPlanned
        exact Registry.state?_eq_some_iff.mpr
          (hKeys planned.key (List.mem_map_of_mem hPlanned))

/-- A page, the template that it includes and the image that it shows. -/
theorem compileRoot_output_page :
    let page : Resource :=
      { path := "page/index.tpl"
        kind := .template
        content := "<img src=\"../logo.png\"/>\x7b\x7binclude file=\"nav.tpl\"\x7d\x7d".toUTF8 }
    let build : Build := { resources :=
      { entries := [page, { path := "page/nav.tpl", kind := .template, content := "-".toUTF8 },
          { path := "logo.png", kind := .image, content := .empty }]
        paths_nodup := by decide } }
    let last := (Session.compileRoot {} page.path build).2
    ∃ after, last.resources.get? page.path = some after ∧
      after.text =
        "<img src=\"logo.png\"/>\x7b\x7binclude file=\"./nav.tpl\"\x7d\x7d".toList ∧
      ∃ middle,
        Spliced 0 page.text
          (passEdits identityReplacement (View.resource last.resources.get?)
            (identityPlan {} page.path page.text)) middle ∧
        Spliced 0 middle
          (passEdits (relativeReplacement page.path) (View.resource last.resources.get?)
            (relativePlan page.path middle)) after.text := by
  intro page build last
  have hRun : (Session.compileRoot {} page.path build).1.isOk = true ∧
      (last.resources.get? page.path).any (fun after => after.state = .compiled ∧ after.text =
        "<img src=\"logo.png\"/>\x7b\x7binclude file=\"./nav.tpl\"\x7d\x7d".toList) = true := by
    decide +kernel
  obtain ⟨hOutcome, hPage⟩ := hRun
  obtain ⟨after, hAfter, hDone⟩ := (Option.any_eq_true ..).mp hPage
  obtain ⟨hCompiled, hFinal⟩ := of_decide_eq_true hDone
  have hOk : Session.compileRoot {} page.path build = (.ok (), last) := by
    obtain ⟨_, hLast⟩ := exists_ok_iff_isOk.mpr hOutcome
    have hFirst : (Session.compileRoot {} page.path build).1 = .ok () := by rw [hLast]
    exact Prod.ext hFirst rfl
  have hBefore : build.resources.get? page.path = some page := rfl
  obtain ⟨uri, hUri, -, hText⟩ := compileRoot_output {} Compilers.builtIn_default hOk hBefore rfl
    hAfter hCompiled
  cases hUri
  obtain ⟨middle, hFirst, hSecond, -⟩ := hText rfl rfl
  exact ⟨after, hAfter, hFinal, middle, hFirst, hSecond⟩

end Session

end AssetLoom
