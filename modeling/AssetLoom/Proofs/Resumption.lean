import AssetLoom.Proofs.Remains

/-!
# Compiles from drafts

A template may be compiled from its text or from a draft of it. If the first pass makes the same
of both, from what is compiled already, then the two are interchangeable
(`Session.Interchangeable`): what is built from either is the same (`Resembles.builds`), what
fails fails with the same error (`Resembles.fails`), and apart from what is compiled already the
same is needed (`Resembles.needs`).
-/

namespace AssetLoom

/-- The compiled resources of a view, and other ones where there is none. -/
def View.resourceOr (view : View) (other : String → Resource) (path : String) : Resource :=
  ((view path).filter Resource.isCompiled).getD (other path)

theorem View.resourceOr_of_compiled {view : View} {path : String} (h : View.Compiled view path)
    (other : String → Resource) : view.resourceOr other path = View.resource view path := by
  obtain ⟨r, hGet, hState⟩ := h
  simp [resourceOr, resource, hGet, Option.filter_some, Resource.isCompiled, hState]

theorem View.resourceOr_of_not_compiled {view : View} {path : String}
    (h : ¬ View.Compiled view path) (other : String → Resource) :
    view.resourceOr other path = other path := by
  cases hGet : view path with
  | none => simp [resourceOr, hGet]
  | some r =>
    have hState : r.state ≠ .compiled := fun hState => h ⟨r, hGet, hState⟩
    simp [resourceOr, hGet, Option.filter_some, Resource.isCompiled, hState]

namespace Session

variable {session : Session} {start sources sources' : View} {stack : List String}
  {path key q : String} {r r' made : Resource} {e : CompileError} {demand : Demand}

/-- The first pass makes the same of two contents, and all that it plans for either of them is
compiled already. -/
structure SameFirstPass (session : Session) (start : View) (path : String)
    (content content' : ByteArray) : Prop where
  compiled : ∀ key ∈ (identityPlan session.options path (Text.decode content)).map Planned.key,
    View.Compiled start key
  compiled' : ∀ key ∈ (identityPlan session.options path (Text.decode content')).map Planned.key,
    View.Compiled start key
  content_eq : identityContent session.options path (View.resource start) content =
    identityContent session.options path (View.resource start) content'

/-- Two versions of a resource that differ in nothing but the URI, or are templates of which the
first pass makes the same. -/
structure Interchangeable (session : Session) (start : View) (path : String) (r r' : Resource) :
    Prop where
  same : r' = { r with content := r'.content, uri := r'.uri }
  content : r'.content = r.content ∨ r.permanent = false ∧
    session.compilers.forKind r.kind = templateCompiler ∧
    session.SameFirstPass start path r.content r'.content

namespace SameFirstPass

variable {content content' : ByteArray}

theorem symm (h : session.SameFirstPass start path content content') :
    session.SameFirstPass start path content' content :=
  ⟨h.compiled', h.compiled, h.content_eq.symm⟩

/-- Whatever else is known, the first pass makes the same. -/
theorem content_eq_of (h : session.SameFirstPass start path content content')
    {dependency dependency' : String → Resource}
    (hSame : ∀ k ∈ (identityPlan session.options path (Text.decode content)).map Planned.key,
      dependency k = View.resource start k)
    (hSame' : ∀ k ∈ (identityPlan session.options path (Text.decode content')).map Planned.key,
      dependency' k = View.resource start k) :
    identityContent session.options path dependency content =
      identityContent session.options path dependency' content' := by
  rw [identityContent_congr hSame, h.content_eq, identityContent_congr hSame']

theorem text_eq_of (h : session.SameFirstPass start path content content')
    {dependency dependency' : String → Resource}
    (hSame : ∀ k ∈ (identityPlan session.options path (Text.decode content)).map Planned.key,
      dependency k = View.resource start k)
    (hSame' : ∀ k ∈ (identityPlan session.options path (Text.decode content')).map Planned.key,
      dependency' k = View.resource start k) :
    identityText session.options path dependency (Text.decode content) =
      identityText session.options path dependency' (Text.decode content') := by
  rw [← decode_identityContent, h.content_eq_of hSame hSame', decode_identityContent]

end SameFirstPass

namespace Interchangeable

theorem refl (r : Resource) : session.Interchangeable start path r r := ⟨rfl, .inl rfl⟩

theorem symm (h : session.Interchangeable start path r r') :
    session.Interchangeable start path r' r := by
  obtain ⟨hSame, hContent⟩ := h
  refine ⟨by rw [hSame], ?_⟩
  rcases hContent with hContent | ⟨hPermanent, hTemplate, hFirst⟩
  · exact .inl hContent.symm
  · exact .inr ⟨by rw [hSame]; exact hPermanent, by rw [hSame]; exact hTemplate, hFirst.symm⟩

theorem path_eq (h : session.Interchangeable start path r r') : r'.path = r.path := by
  rw [h.same]

theorem kind_eq (h : session.Interchangeable start path r r') : r'.kind = r.kind := by
  rw [h.same]

theorem permanent_eq (h : session.Interchangeable start path r r') :
    r'.permanent = r.permanent := by
  rw [h.same]

/-- A compile that makes the same content of both makes the same resource of them. -/
theorem made_eq (h : session.Interchangeable start path r r') (content : ByteArray)
    (uri : Option String) (state : CompileState) :
    { r with content, uri, state } = { r' with content, uri, state } := by
  rw [h.same]

/-- With the same content, the same is made from the same. -/
theorem makes (h : session.Interchangeable start path r r') (hContent : r'.content = r.content)
    {rule : Option Rule} {dependency : String → Resource} {keys : List String}
    (hMakes : session.Makes rule dependency r keys made) :
    session.Makes rule dependency r' keys made := by
  have hPath := h.path_eq
  have hKind := h.kind_eq
  have hPermanent := h.permanent_eq
  have hText : r'.text = r.text := congrArg Text.decode hContent
  cases hMakes with
  | @plain uri hPlain hUri =>
    have hMade := h.made_eq r.content (some uri) .compiled
    rw [← hPath] at hUri
    rw [← hKind, ← hPermanent] at hPlain
    rw [hMade, ← hContent]
    exact .plain hPlain hUri
  | @template uri hFree hTemplate hUri =>
    have hKeys : neededKeys session.options dependency r =
        neededKeys session.options dependency r' := by
      rw [neededKeys, neededKeys, hPath, hText]
    rw [← hPermanent] at hFree
    rw [← hKind] at hTemplate
    rw [h.made_eq, hKeys, ← hPath, ← hContent]
    exact .template hFree hTemplate (hPath ▸ hUri)

end Interchangeable

/-- Two sources of which the same comes about, given what is compiled already. -/
structure Resembles (session : Session) (start sources sources' : View) : Prop where
  sound : session.Sound sources start
  sound' : session.Sound sources' start
  unbuilt : View.Unbuilt sources
  unbuilt' : View.Unbuilt sources'
  alike : ∀ path, Option.Rel (session.Interchangeable start path) (sources path) (sources' path)

namespace Resembles

theorem symm (h : session.Resembles start sources sources') :
    session.Resembles start sources' sources := by
  refine ⟨h.sound', h.sound, h.unbuilt', h.unbuilt, fun path => ?_⟩
  have hRel := h.alike path
  generalize sources path = first at hRel
  generalize sources' path = second at hRel
  cases hRel with
  | some hAlike => exact .some hAlike.symm
  | none => exact .none

theorem get (h : session.Resembles start sources sources') (hGet : sources path = some r) :
    ∃ r', sources' path = some r' ∧ session.Interchangeable start path r r' := by
  have hRel := h.alike path
  rw [hGet] at hRel
  generalize hGet' : sources' path = other at hRel
  cases hRel with
  | some hAlike => exact ⟨_, rfl, hAlike⟩

theorem get_none (h : session.Resembles start sources sources') (hGet : sources path = none) :
    sources' path = none := by
  cases hGet' : sources' path with
  | none => rfl
  | some r' =>
    obtain ⟨r, hSome, -⟩ := h.symm.get hGet'
    simp [hGet] at hSome

theorem isSome (h : session.Resembles start sources sources') (hSome : (sources path).isSome) :
    (sources' path).isSome := by
  obtain ⟨r, hGet⟩ := Option.isSome_iff_exists.mp hSome
  obtain ⟨r', hGet', -⟩ := h.get hGet
  simp [hGet']

/-- A template is one in both, and its text or what the first pass makes of it is the same. -/
theorem rewritable (h : session.Resembles start sources sources')
    (hTemplate : session.Rewritable sources path r) :
    ∃ r', session.Rewritable sources' path r' ∧ session.Interchangeable start path r r' ∧
      (r'.text = r.text ∨ session.SameFirstPass start path r.content r'.content) := by
  obtain ⟨r', hGet', hAlike⟩ := h.get hTemplate.get
  obtain ⟨hNamed', hPending'⟩ := h.unbuilt' path r' hGet'
  refine ⟨r', ⟨hGet', hNamed', hPending', ?_, ?_⟩, hAlike, ?_⟩
  · rw [hAlike.permanent_eq]
    exact hTemplate.permanent
  · rw [hAlike.kind_eq]
    exact hTemplate.template
  · rcases hAlike.content with hContent | ⟨-, -, hFirst⟩
    · exact .inl (congrArg Text.decode hContent)
    · exact .inr hFirst

/-- The same is built from both. -/
theorem builds (h : session.Resembles start sources sources')
    (hMade : session.Builds sources path made) : session.Builds sources' path made := by
  induction hMade with
  | @intro path r made keys dependency hGet hMakes hKeys ih =>
    obtain ⟨r', hGet', hAlike⟩ := h.get hGet
    rcases hAlike.content with hContent | ⟨hPermanent, hTemplate, hFirst⟩
    · exact .intro hGet' (hAlike.makes hContent hMakes) ih
    · obtain ⟨rfl, hPending⟩ := h.unbuilt path r hGet
      obtain ⟨r'', hRewritable', -⟩ :=
        h.rewritable (r := r) ⟨hGet, rfl, hPending, hPermanent, hTemplate⟩
      cases hGet'.symm.trans hRewritable'.get
      cases hMakes with
      | plain hPlain _ =>
        rcases hPlain with hPlain | hPlain
        · simp [hPlain] at hPermanent
        · exact absurd (hTemplate.symm.trans hPlain) templateCompiler_ne_assetCompiler
      | @template uri _ _ hUri =>
        -- What is compiled already is taken from there, also where it is not used here.
        have hSame : ∀ k ∈ neededKeys session.options dependency r, View.Compiled start k →
            dependency k = View.resource start k :=
          fun k hk hCompiled => (hKeys k hk).unique (h.sound.builds k hCompiled)
        have hBefore : ∀ k ∈ (identityPlan session.options r.path r.text).map Planned.key,
            dependency k = View.resource start k :=
          fun k hk => hSame k (mem_neededKeys.mpr (.inl hk)) (hFirst.compiled k hk)
        have hBefore' : ∀ k ∈ (identityPlan session.options r.path r'.text).map Planned.key,
            start.resourceOr dependency k = View.resource start k :=
          fun k hk => View.resourceOr_of_compiled (hFirst.compiled' k hk) dependency
        have hText := hFirst.text_eq_of hBefore hBefore'
        have hContent := hFirst.content_eq_of hBefore hBefore'
        refine hRewritable'.builds_iff.mpr ⟨start.resourceOr dependency, uri, ?_, hUri, ?_⟩
        · intro k hk
          by_cases hCompiled : View.Compiled start k
          · rw [View.resourceOr_of_compiled hCompiled]
            exact h.sound'.builds k hCompiled
          · rw [View.resourceOr_of_not_compiled hCompiled]
            rw [mem_neededKeys, hRewritable'.named] at hk
            rcases hk with hk | hk
            · exact absurd (hFirst.compiled' k hk) hCompiled
            · refine ih k (mem_neededKeys.mpr (.inr ?_))
              rw [Resource.text, hText]
              exact hk
        · rw [hAlike.made_eq, ← hContent]
          congr 1
          apply relativeContent_congr
          intro k hk
          by_cases hCompiled : View.Compiled start k
          · rw [View.resourceOr_of_compiled hCompiled]
            refine hSame k (mem_neededKeys.mpr (.inr ?_)) hCompiled
            rw [decode_identityContent] at hk
            exact hk
          · rw [View.resourceOr_of_not_compiled hCompiled]

/-- Apart from what is compiled already, the same is used. -/
theorem uses (h : session.Resembles start sources sources')
    (hUses : session.Uses sources path key) (hOpen : ¬ View.Compiled start key) :
    session.Uses sources' path key := by
  obtain ⟨r, made, keys, dependency, hGet, hMakes, hBuilds, hKey⟩ := hUses
  have hMade : session.Builds sources path made := .intro hGet hMakes hBuilds
  obtain ⟨r', hGet', hAlike⟩ := h.get hGet
  rcases hAlike.content with hContent | ⟨hPermanent, hTemplate, hFirst⟩
  · exact ⟨r', made, keys, dependency, hGet', hAlike.makes hContent hMakes,
      fun k hk => h.builds (hBuilds k hk), hKey⟩
  · obtain ⟨hNamed, hPending⟩ := h.unbuilt path r hGet
    have hRewritable : session.Rewritable sources path r :=
      ⟨hGet, hNamed, hPending, hPermanent, hTemplate⟩
    obtain ⟨r'', hRewritable', -⟩ := h.rewritable hRewritable
    cases hGet'.symm.trans hRewritable'.get
    have hText := hFirst.text_eq_of (fun _ _ => rfl) (fun _ _ => rfl)
    rw [hRewritable'.uses_iff (h.builds hMade)
      (fun k hk => h.sound'.builds k (hFirst.compiled' k hk)), mem_neededKeys,
      hRewritable'.named]
    have hUses : session.Uses sources path key :=
      ⟨r, made, keys, dependency, hGet, hMakes, hBuilds, hKey⟩
    rw [hRewritable.uses_iff hMade (fun k hk => h.sound.builds k (hFirst.compiled k hk)),
      mem_neededKeys, hNamed] at hUses
    rcases hUses with hUses | hUses
    · exact absurd (hFirst.compiled key hUses) hOpen
    · rw [Resource.text, hText] at hUses
      exact .inr hUses

theorem needs (h : session.Resembles start sources sources')
    (hNeeds : session.Needs sources path key) (hOpen : ¬ View.Compiled start key) :
    session.Needs sources' path key := by
  induction hNeeds using Relation.ReflTransGen.head_induction_on with
  | refl => exact .refl
  | head hUses hNeeds ih =>
    refine .head (h.uses hUses fun hCompiled => ?_) ih
    exact hOpen (h.sound.compiled_of_needs hCompiled hNeeds)

theorem clear (h : session.Resembles start sources sources')
    (hStack : ∀ q ∈ stack, ¬ View.Compiled start q) (hClear : session.Clear sources stack path) :
    session.Clear sources' stack path where
  builds := by
    obtain ⟨made, hMade⟩ := hClear.builds
    exact ⟨made, h.builds hMade⟩
  free q hq hNeeds := hClear.free q hq (h.symm.needs hNeeds (hStack q hq))

/-- What fails has not been compiled already. -/
theorem not_compiled_of_fails (h : session.Resembles start sources sources')
    (hStack : ∀ q ∈ stack, ¬ View.Compiled start q)
    (hFails : session.Fails sources e stack (.root key)) :
    ∀ q ∈ stack ++ [key], ¬ View.Compiled start q := by
  intro q hq hCompiled
  rcases List.mem_append.mp hq with hq | hq
  · exact hStack q hq hCompiled
  · rw [List.mem_singleton.mp hq] at hCompiled
    exact (h.sound.clear hCompiled hStack).root_not_fails hFails

/-- What fails from the one fails from the other with the same error. -/
theorem fails (h : session.Resembles start sources sources')
    (hFails : session.Fails sources e stack demand)
    (hStack : ∀ q ∈ stack, ¬ View.Compiled start q) :
    session.Fails sources' e stack demand := by
  induction hFails with
  | unknown hGet hCause => exact .unknown (h.get_none hGet) hCause
  | circle hRegistered hOpen hCause => exact .circle (h.isSome hRegistered) hOpen hCause
  | plain hGet hNamed hFresh hPlain hCause =>
    obtain ⟨r', hGet', hAlike⟩ := h.get hGet
    refine .plain hGet' (hAlike.path_eq.trans hNamed) hFresh ?_ hCause
    rw [hAlike.permanent_eq, hAlike.kind_eq]
    exact hPlain
  | first hTemplate hFresh hKeys ih =>
    have hInner := h.not_compiled_of_fails hStack (.first hTemplate hFresh hKeys)
    obtain ⟨r', hTemplate', -, hText | hFirst⟩ := h.rewritable hTemplate
    · exact .first hTemplate' hFresh (hText ▸ ih hInner)
    · exact absurd hKeys
        (Clear.not_fails fun k hk => h.sound.clear (hFirst.compiled k hk) hInner)
  | between hTemplate hFresh hClear hCause =>
    have hInner := h.not_compiled_of_fails hStack (.between hTemplate hFresh hClear hCause)
    obtain ⟨r', hTemplate', -, hText | hFirst⟩ := h.rewritable hTemplate
    · exact .between hTemplate' hFresh
        (fun k hk => h.clear hInner (hClear k (hText ▸ hk))) hCause
    · exact .between hTemplate' hFresh
        (fun k hk => h.sound'.clear (hFirst.compiled' k hk) hInner) hCause
  | @second stack key uri r dependency hTemplate hFresh hClear hBuilds hUri hKeys ih =>
    have hInner := h.not_compiled_of_fails hStack
      (.second hTemplate hFresh hClear hBuilds hUri hKeys)
    obtain ⟨r', hTemplate', -, hText | hFirst⟩ := h.rewritable hTemplate
    · exact .second hTemplate' hFresh (fun k hk => h.clear hInner (hClear k (hText ▸ hk)))
        (fun k hk => h.builds (hBuilds k (hText ▸ hk))) hUri (hText ▸ ih hInner)
    · refine .second hTemplate' hFresh
        (fun k hk => h.sound'.clear (hFirst.compiled' k hk) hInner)
        (fun k hk => h.sound'.builds k (hFirst.compiled' k hk)) hUri ?_
      have hBefore : ∀ k ∈ (identityPlan session.options key r.text).map Planned.key,
          dependency k = View.resource start k :=
        fun k hk => (hBuilds k hk).unique (h.sound.builds k (hFirst.compiled k hk))
      have hSame := hFirst.text_eq_of hBefore (fun _ _ => rfl)
      rw [Resource.text, ← hSame]
      exact ih hInner
  | missing hGet hCause => exact .missing (h.get_none hGet) hCause
  | destination hRegistered hCause => exact .destination (h.isSome hRegistered) hCause
  | within hTarget hRegistered _ ih =>
    exact .within hTarget (h.isSome hRegistered) (ih hStack)
  | later hClear _ ih => exact .later (h.clear hStack hClear) (ih hStack)

end Resembles

end Session

end AssetLoom
