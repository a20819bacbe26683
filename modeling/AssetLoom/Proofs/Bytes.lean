import AssetLoom.Proofs.Links

/-!
# Bytes that stay as they are

Resources are bytes, and templates are rewritten as texts. Bytes that are not UTF-8 are read with
replacements, so a text that is written may differ from the bytes that it was read from. The first
pass writes only a text that has changed, the second pass whenever it has an edit. So if a compile
leaves the text of a template as it was, its bytes stay as well, unless they are not UTF-8 and the
second pass has an edit (`compile_keeps_bytes`).

Between the passes the text may be another one than before and after. It has been written then
(`compile_undoes_rewrite`).
-/

namespace AssetLoom

/-- The bytes of a text that two passes leave as it was. -/
theorem relativeContent_identityContent_eq {options : CompileOptions} {path own : String}
    {dependency : String → Resource} {content : ByteArray}
    (hText : Text.decode (relativeContent path own dependency
      (identityContent options path dependency content)) = Text.decode content) :
    relativeContent path own dependency (identityContent options path dependency content) =
        content ∨
      (∀ t, content ≠ Text.encode t) ∧
        relativePlan path (identityText options path dependency (Text.decode content)) ≠ [] := by
  by_cases hPlan : relativePlan path
      (identityText options path dependency (Text.decode content)) = []
  · -- Without an edit all depends on the first pass.
    have hSecond : relativeContent path own dependency
        (identityContent options path dependency content) =
          identityContent options path dependency content := by
      rw [relativeContent, decode_identityContent, if_pos hPlan]
    rw [hSecond, decode_identityContent] at hText
    rw [hSecond, identityContent, if_pos hText]
    exact .inl rfl
  · by_cases hEncoded : ∃ t, content = Text.encode t
    · obtain ⟨t, rfl⟩ := hEncoded
      rw [decode_relativeContent, decode_identityContent, Text.decode_encode] at hText
      rw [Text.decode_encode] at hPlan
      rw [relativeContent, decode_identityContent, Text.decode_encode, if_neg hPlan, hText]
      exact .inl rfl
    · exact .inr ⟨not_exists.mp hEncoded, hPlan⟩

namespace Session

variable {session : Session} {path : String} {rule : Option Rule} {build last : Build}
  {before after : Resource}

/-- Of a permanent template only the URI is set. -/
theorem get?_of_permanent {compile : String → Option Rule → Build → Outcome × Build}
    (hGet : build.resources.get? path = some before) (hPermanent : before.permanent = true)
    (h : session.run compile (templateCompiler session.options path rule).run build =
      (.ok (), last)) : ∃ uri, last.resources.get? path = some { before with uri := some uri } := by
  rw [run_templateCompiler_of_permanent hGet hPermanent] at h
  obtain ⟨told, compiled, hTold, hCompiled, hResolved⟩ := run_assetCompiler_eq_ok_iff.mp h
  obtain ⟨uri, -, hLast⟩ := resolveUri_eq_ok_resources hResolved
  rw [emit_eq_ok_resources hCompiled, emit_eq_ok_resources hTold] at hLast
  refine ⟨uri, ?_⟩
  rw [hLast, Registry.get?_setUri, if_pos rfl, hGet]
  rfl

/-- A template whose text a compile leaves as it was keeps its bytes, by whatever rule and at
whatever depth it is compiled, unless these bytes are no UTF-8 and the second pass plans an edit in
the text that comes from the first one. -/
theorem compile_keeps_bytes (hOwn : ∀ kind, (session.compilers.forKind kind).TendsOwn)
    {depth : Nat} (hGet : build.resources.get? path = some before)
    (hTemplate : session.compilers.forKind before.kind = templateCompiler)
    (hOk : session.compileWithin depth path rule build = (.ok (), last))
    (hLast : last.resources.get? path = some after) (hText : after.text = before.text) :
    after.content = before.content ∨
      (∀ t, before.content ≠ Text.encode t) ∧
        relativePlan path (identityText session.options path (View.resource last.resources.get?)
          before.text) ≠ [] := by
  obtain ⟨r, hRegistered, -, rfl⟩ | ⟨inner, r, closing, -, hRegistered, hPending, hRun, hClosing⟩ :=
    compileWithin_eq_ok hOk
  · rw [hGet] at hLast
    cases hLast
    exact .inl rfl
  · rw [hGet] at hRegistered
    cases hRegistered
    cases hPermanent : before.permanent with
    | true =>
      have hBusy : (build.enter path before.kind).resources.get? path =
          some { before with state := .compiling } := by
        simp [Build.enter, Registry.get?_setState, hGet]
      rw [hTemplate] at hRun
      obtain ⟨uri, hStands⟩ := get?_of_permanent hBusy hPermanent hRun
      rw [hClosing, Build.leave, Registry.get?_setState, if_pos rfl, hStands] at hLast
      cases hLast
      exact .inl rfl
    | false =>
      let attempt : session.Attempt :=
        { path, rule, start := build, template := before, get := hGet, pending := hPending
          permanent := hPermanent, compiler := hTemplate }
      obtain ⟨v, hVersion, hStands⟩ := attempt.version_of_ok hOwn hOk (.refl last)
      rw [hLast] at hStands
      cases hStands
      cases hVersion with
      | finished => exact relativeContent_identityContent_eq hText

/-- An image whose address is its URI, behind a byte that belongs to no character. -/
theorem compile_keeps_bytes_image :
    let page : Resource :=
      { path := "a.tpl", kind := .template
        content := ⟨#[0xFF]⟩ ++ "<img src=\"b.png\"/>".toUTF8 }
    let start : Build := { resources :=
      { entries := [page, { path := "b.png", kind := .image, content := .empty }]
        paths_nodup := by decide } }
    let result := Session.compile {} page.path none start
    result.1 = .ok () ∧ page.content ≠ Text.encode page.text ∧
      ∃ after, result.2.resources.get? page.path = some after ∧ after.state = .compiled ∧
        after.content = page.content := by
  intro page start result
  obtain ⟨hOutcome, hMade, hPlan⟩ : result.1 = .ok () ∧
      (result.2.resources.get? page.path).map (fun r => (r.state, r.text)) =
        some (.compiled, page.text) ∧
      relativePlan page.path (identityText {} page.path
        (View.resource result.2.resources.get?) page.text) = [] := by decide +kernel
  obtain ⟨after, hAfter, hSame⟩ := Option.map_eq_some_iff.mp hMade
  obtain ⟨hState, hText⟩ := Prod.mk.inj hSame
  have hOk : Session.compileWithin {} 2 page.path none start = (.ok (), result.2) :=
    Prod.ext hOutcome rfl
  have hKeeps := compile_keeps_bytes (fun kind => Compilers.builtIn_default.tendsOwn kind)
    (Registry.get?_eq_some_iff.mpr ⟨List.mem_cons_self, rfl⟩) rfl hOk hAfter hText
  exact ⟨hOutcome, by decide +kernel, after, hAfter, hState,
    hKeeps.resolve_right fun h => h.2 hPlan⟩

/-- The first pass writes the name of a script into the address of an include, and the second pass
replaces the whole address by the path that stood there before. So the text is the old one in the
end, but both passes have written it, in UTF-8. -/
theorem compile_undoes_rewrite :
    let expression := "\x7b\x7bbrisk_require_js name='"
    let page : Resource :=
      { path := "a.tpl", kind := .template
        content := ⟨#[0xFF]⟩ ++
          ("\x7b\x7binclude file=\"./" ++ expression ++ "y.js'\"\x7d\x7d").toUTF8 }
    let start : Build := { resources :=
      { entries := [page,
          { path := "y.js", label := some ("x/../" ++ expression ++ "y.js"), kind := .script,
            content := .empty },
          { path := expression ++ "y.js'", kind := .other, content := .empty }]
        paths_nodup := by decide } }
    let result := Session.compile {} page.path none start
    result.1 = .ok () ∧
      identityText {} page.path (View.resource result.2.resources.get?) page.text ≠ page.text ∧
      ∃ after, result.2.resources.get? page.path = some after ∧ after.text = page.text ∧
        after.content ≠ page.content := by
  intro expression page start result
  obtain ⟨hOutcome, hRewritten, hMade⟩ : result.1 = .ok () ∧
      identityText {} page.path (View.resource result.2.resources.get?) page.text ≠ page.text ∧
      (result.2.resources.get? page.path).map
        (fun r => (r.text, decide (r.content = page.content))) = some (page.text, false) := by
    decide +kernel
  obtain ⟨after, hAfter, hSame⟩ := Option.map_eq_some_iff.mp hMade
  obtain ⟨hText, hContent⟩ := Prod.mk.inj hSame
  exact ⟨hOutcome, hRewritten, after, hAfter, hText, of_decide_eq_false hContent⟩

end Session

end AssetLoom
