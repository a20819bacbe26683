import AssetLoom.Proofs.Directory
import AssetLoom.Proofs.Stages

/-!
# Where rewritten addresses lead

The second pass writes paths that start from the directory of the template's own URI. Such a path,
taken from there, leads to the output of the resource that the directive names
(`compile_links`). There is one way to miss it: the directory is so far up that the way down from
there is not known, or only one of the two URIs starts at the root.

* `join_relativeAddress`: the address by itself, for any two URIs.
* `Attempt.version_of_ok`: what a template is once it is compiled, from then on.
-/

namespace AssetLoom

/-! ## Addresses -/

/-- A dot and a slash are put in front, if at all. -/
theorem toList_dotted (path : String) : (dotted path).toList = path.toList ∨
    (dotted path).toList = '.' :: '/' :: path.toList := by
  unfold dotted
  split
  · exact .inl rfl
  · exact .inr (by rw [String.toList_append]; rfl)

/-- What is put in front of a path does not change where it leads. -/
theorem Path.join_dotted (base : String) {path : String} (hRoot : isRooted path = false) :
    join base (dotted path) = join base path := by
  rcases toList_dotted path with h | h
  · rw [join, h, join]
  · rw [join, h, Segments.join_dot_slash _ hRoot, join]

/-- The address that is written into a template with the URI `own` leads to the output of the
dependency, whatever the two URIs are. -/
theorem join_relativeAddress {own : String} {dependency : Resource}
    (hRoot : Path.isRooted own = Path.isRooted dependency.output)
    (hClimbs : Path.climbs (Path.normalize (Path.dirname own)) ≤
      Path.climbs (Path.normalize dependency.output)) :
    Path.join (Path.dirname own) (relativeAddress own dependency) =
      Path.normalize dependency.output := by
  have hStart : Path.isRooted (Path.dirname own) = Path.isRooted dependency.output :=
    (Path.isRooted_dirname own).trans hRoot
  rw [relativeAddress, Path.join_dotted _ (Path.isRooted_relative hStart),
    Path.join_relative hStart hClimbs]

/-! ## Compiled templates -/

namespace Session

open Build (Keeps)

namespace Attempt

variable {session : Session} {attempt : session.Attempt} {depth : Nat} {last later : Build}

/-- A template that has been compiled is at its last stage, and stays there. -/
theorem version_of_ok (hOwn : ∀ kind, (session.compilers.forKind kind).TendsOwn)
    (hOk : session.compileWithin depth attempt.path attempt.rule attempt.start = (.ok (), last))
    (hLater : Keeps last later) :
    ∃ v, attempt.Version later.resources.get? .finished v ∧
      later.resources.get? attempt.path = some { v with state := .compiled } := by
  obtain ⟨r, hGet, hState, -⟩ | ⟨inner, r, closing, -, hGet, -, hRun, rfl⟩ :=
    compileWithin_eq_ok hOk
  · rw [attempt.get] at hGet
    cases hGet
    simp [attempt.pending] at hState
  · rw [attempt.get] at hGet
    cases hGet
    rw [attempt.compiler] at hRun
    have hEnter : attempt.At .untouched [] .compiling
        (attempt.start.enter attempt.path attempt.template.kind) := at_enter (.refl _ _)
    have hClosing := (Leads.templateCompiler (subordinate_compileWithin hOwn inner) _ hEnter).2
    rw [hRun] at hClosing
    obtain ⟨v, hVersion, hStands⟩ := (hClosing.leave (by decide) (.ok ())).version
    exact ⟨v, hVersion.keep fun key hKey => hLater.view_eq hKey, hLater _ _ hStands rfl⟩

end Attempt

end Session

/-- The second pass replaces addresses only. -/
theorem Planned.region_of_relative {t : Text} {referrer : String} {planned : Planned}
    (h : planned ∈ plan t .relative referrer) : planned.region = planned.directive.addressSpan ∧
      (planned.directive.kind = .includeFile ∨ planned.directive.kind = .extendFile ∨
        planned.directive.kind = .widget) := by
  obtain ⟨hMem, -, hRegion⟩ := Planned.region_cases (mem_of_mem_disjoint h)
  have hKind : planned.directive.kind = .includeFile ∨ planned.directive.kind = .extendFile ∨
      planned.directive.kind = .widget := by
    rw [Directive.scan, List.mem_mergeSort] at hMem
    rcases List.mem_append.mp hMem with hMem | hMem
    · rcases Directive.kind_of_mem_scanIncludes hMem with hKind | hKind
      · exact .inl hKind
      · exact .inr (.inl hKind)
    · exact .inr (.inr (Directive.kind_of_mem_scanWidgets hMem))
  refine ⟨hRegion.resolve_right ?_, hKind⟩
  rintro ⟨-, hEmbed⟩
  rcases hKind with hKind | hKind | hKind <;> simp [hKind, DirectiveKind.isEmbed] at hEmbed

namespace Session

open Build (Keeps)

/-- Whenever a template is compiled, by whatever rule and at whatever depth, and from then on: its
text is the output of the first pass with the addresses of the second plan replaced. Everything
planned is compiled, and the address that is written for it, in place of an include or an extends
and in the path attribute of a widget, leads from the directory of the template's own URI to the
output of what is named. -/
theorem compile_links {session : Session} (attempt : session.Attempt)
    (hOwn : ∀ kind, (session.compilers.forKind kind).TendsOwn) {depth : Nat} {last later : Build}
    (hOk : session.compileWithin depth attempt.path attempt.rule attempt.start = (.ok (), last))
    (hLater : Keeps last later) :
    let view : View := later.resources.get?
    let before := Text.decode (attempt.rewritten view)
    ∃ own made, uriBy attempt.rule attempt.path = .ok own ∧ view attempt.path = some made ∧
      made.uri = some own ∧ made.state = .compiled ∧
      Spliced 0 before (passEdits (relativeReplacement own) (View.resource view)
        (relativePlan attempt.path before)) made.text ∧
      ∀ planned ∈ relativePlan attempt.path before,
        let dependency := View.resource view planned.key
        let address := relativeAddress own dependency
        planned.region = planned.directive.addressSpan ∧ view planned.key = some dependency ∧
        dependency.state = .compiled ∧
        ((planned.directive.kind = .includeFile ∨ planned.directive.kind = .extendFile) ∧
            relativeReplacement own planned dependency = address.toList ∨
          planned.directive.kind = .widget ∧
            relativeReplacement own planned dependency = dependency.id.toList ++
              planned.directive.quote :: " path=".toList ++
                planned.directive.quote :: address.toList) ∧
        (Path.isRooted own = Path.isRooted dependency.output →
          Path.climbs (Path.normalize (Path.dirname own)) ≤
            Path.climbs (Path.normalize dependency.output) →
          Path.join (Path.dirname own) address = Path.normalize dependency.output) := by
  obtain ⟨v, hVersion, hMade⟩ := Attempt.version_of_ok hOwn hOk hLater
  intro view before
  cases hVersion with
  | @finished own hFirst hUri hSecond =>
    refine ⟨own, _, hUri, hMade, rfl, rfl, ?_, ?_⟩
    · rw [Resource.text, decode_relativeContent]
      exact spliced_relativeText ..
    · intro planned hPlanned dependency address
      obtain ⟨r, hGet, hState⟩ := hSecond planned.key (List.mem_map_of_mem hPlanned)
      have hDependency : dependency = r := View.resource_eq hGet
      obtain ⟨hRegion, hKind⟩ := Planned.region_of_relative hPlanned
      refine ⟨hRegion, hDependency ▸ hGet, hDependency ▸ hState, ?_, join_relativeAddress⟩
      unfold relativeReplacement
      rcases hKind with hKind | hKind | hKind <;> rw [hKind]
      · exact .inl ⟨.inl rfl, rfl⟩
      · exact .inl ⟨.inr rfl, rfl⟩
      · exact .inr ⟨rfl, rfl⟩

/-- A page that shows a widget of another directory. -/
theorem compile_links_widget :
    let page : Resource :=
      { path := "page/index.tpl"
        kind := .template
        content := "\x7b\x7bbrisk_widget name='../part/nav.tpl'\x7d\x7d".toUTF8 }
    let start : Build := { resources :=
      { entries := [page, { path := "part/nav.tpl", kind := .template, content := "-".toUTF8 }]
        paths_nodup := by decide } }
    let result := Session.compile {} page.path none start
    let dependency := fun planned : Planned =>
      View.resource result.2.resources.get? planned.key
    result.1 = .ok () ∧ (relativePlan page.path page.text).length = 1 ∧
      ∀ planned ∈ relativePlan page.path page.text, (dependency planned).state = .compiled ∧
        Path.join (Path.dirname page.path) (relativeAddress page.path (dependency planned)) =
          Path.normalize (dependency planned).output := by
  intro page start result dependency
  let attempt : Attempt {} :=
    { path := page.path, rule := none, start, template := page
      get := Registry.get?_eq_some_iff.mpr ⟨List.mem_cons_self, rfl⟩
      pending := rfl, permanent := rfl, compiler := rfl }
  have hOutcome : result.1 = .ok () := by decide +kernel
  have hOk : Session.compileWithin {} 2 attempt.path attempt.rule attempt.start =
      (.ok (), result.2) := Prod.ext hOutcome rfl
  obtain ⟨own, made, hUri, -, -, -, -, hPlanned⟩ := compile_links attempt
    (fun kind => Compilers.builtIn_default.tendsOwn kind) hOk (.refl _)
  cases hUri
  have hText : Text.decode (attempt.rewritten result.2.resources.get?) = page.text := by
    decide +kernel
  rw [hText] at hPlanned
  have hRoot : ∀ planned ∈ relativePlan page.path page.text,
      Path.isRooted page.path = Path.isRooted (dependency planned).output ∧
      Path.climbs (Path.normalize (Path.dirname page.path)) ≤
        Path.climbs (Path.normalize (dependency planned).output) := by
    decide +kernel
  refine ⟨hOutcome, by decide +kernel, fun planned hMem => ?_⟩
  obtain ⟨-, -, hState, -, hJoin⟩ := hPlanned planned hMem
  exact ⟨hState, hJoin (hRoot planned hMem).1 (hRoot planned hMem).2⟩

end Session

end AssetLoom
