import AssetLoom.Proofs.Encoding
import AssetLoom.Proofs.Region
import AssetLoom.Session
import Mathlib.Logic.Function.Basic

/-!
# What a compile makes of a resource

What the two passes over a template write is a function of its content, its URI and the resources
that are planned (`identityContent`, `relativeContent`). Each pass replaces the regions of its
plan and keeps the text between them (`spliced_identityText`, `spliced_relativeText`).

`Session.Makes` is the whole compile of one resource, given what the planned resources are. No
session is run in it: no event is emitted, and nothing else is compiled.
-/

namespace AssetLoom

/-- What is registered for each path. -/
abbrev View := String → Option Resource

namespace View

/-- The resource for a path; where there is none, an empty one. -/
def resource (view : View) (path : String) : Resource :=
  (view path).getD (.ofContent path .empty)

/-- Whether the resource for a path is compiled. -/
def Compiled (view : View) (path : String) : Prop :=
  ∃ r, view path = some r ∧ r.state = .compiled

theorem resource_eq {view : View} {path : String} {r : Resource} (h : view path = some r) :
    resource view path = r := by
  simp [resource, h]

theorem resource_congr {view view' : View} {path : String} (h : view path = view' path) :
    resource view path = resource view' path := by
  simp [resource, h]

/-- Another resource may change, and a compiled one does not. -/
theorem Compiled.update_eq {view : View} {key path : String} {r : Resource}
    (h : Compiled view key) (hGet : view path = some r) (hState : r.state ≠ .compiled)
    (other : Option Resource) : Function.update view path other key = view key := by
  apply Function.update_of_ne
  rintro rfl
  obtain ⟨d, hd, hCompiled⟩ := h
  rw [hGet] at hd
  cases hd
  exact hState hCompiled

end View

/-! ## The passes -/

/-- The edits for planned directives, given the resources that they name. -/
def passEdits (replacement : Planned → Resource → Text) (dependency : String → Resource)
    (planned : List Planned) : List Edit :=
  planned.map fun p => ⟨p.region, replacement p (dependency p.key)⟩

/-- What the first pass plans for a text of the resource `path`. -/
def identityPlan (options : CompileOptions) (path : String) (t : Text) : List Planned :=
  plan (searchedText options t) .identity path

/-- The text after the first pass. -/
def identityText (options : CompileOptions) (path : String) (dependency : String → Resource)
    (t : Text) : Text :=
  applyEdits (searchedText options t)
    (passEdits identityReplacement dependency (identityPlan options path t))

/-- The content after the first pass. A text that stays as it is is not written. -/
def identityContent (options : CompileOptions) (path : String) (dependency : String → Resource)
    (content : ByteArray) : ByteArray :=
  let output := identityText options path dependency (Text.decode content)
  if output = Text.decode content then content else Text.encode output

/-- What the second pass plans for a text of the resource `path`. -/
def relativePlan (path : String) (t : Text) : List Planned :=
  plan t .relative path

/-- The text after the second pass over a template with the URI `own`. -/
def relativeText (path own : String) (dependency : String → Resource) (t : Text) : Text :=
  applyEdits t (passEdits (relativeReplacement own) dependency (relativePlan path t))

/-- The content after the second pass. Without an edit nothing is written. -/
def relativeContent (path own : String) (dependency : String → Resource) (content : ByteArray) :
    ByteArray :=
  let before := Text.decode content
  if relativePlan path before = [] then content
  else Text.encode (relativeText path own dependency before)

@[simp]
theorem passEdits_cons (replacement : Planned → Resource → Text) (dependency : String → Resource)
    (p : Planned) (planned : List Planned) : passEdits replacement dependency (p :: planned) =
      ⟨p.region, replacement p (dependency p.key)⟩ :: passEdits replacement dependency planned :=
  rfl

theorem passEdits_eq_nil_iff {replacement : Planned → Resource → Text}
    {dependency : String → Resource} {planned : List Planned} :
    passEdits replacement dependency planned = [] ↔ planned = [] := by
  simp [passEdits]

theorem passEdits_congr {replacement : Planned → Resource → Text}
    {dependency dependency' : String → Resource} {planned : List Planned}
    (h : ∀ key ∈ planned.map Planned.key, dependency key = dependency' key) :
    passEdits replacement dependency planned = passEdits replacement dependency' planned := by
  apply List.map_congr_left
  intro p hp
  rw [h p.key (List.mem_map_of_mem hp)]

theorem fits_passEdits (t : Text) (pass : Pass) (referrer : String)
    (replacement : Planned → Resource → Text) (dependency : String → Resource) :
    Fits t (passEdits replacement dependency (plan t pass referrer)) :=
  fits_plan t pass referrer fun p => replacement p (dependency p.key)

/-- The first pass replaces the regions of its plan, and nothing else. -/
theorem spliced_identityText (options : CompileOptions) (path : String)
    (dependency : String → Resource) (t : Text) :
    Spliced 0 (searchedText options t)
      (passEdits identityReplacement dependency (identityPlan options path t))
      (identityText options path dependency t) :=
  spliced_applyEdits (fits_passEdits ..)

/-- The second pass replaces the regions of its plan, and nothing else. -/
theorem spliced_relativeText (path own : String) (dependency : String → Resource) (t : Text) :
    Spliced 0 t (passEdits (relativeReplacement own) dependency (relativePlan path t))
      (relativeText path own dependency t) :=
  spliced_applyEdits (fits_passEdits ..)

theorem decode_identityContent (options : CompileOptions) (path : String)
    (dependency : String → Resource) (content : ByteArray) :
    Text.decode (identityContent options path dependency content) =
      identityText options path dependency (Text.decode content) := by
  dsimp only [identityContent]
  split
  · next h => exact h.symm
  · exact Text.decode_encode _

theorem decode_relativeContent (path own : String) (dependency : String → Resource)
    (content : ByteArray) :
    Text.decode (relativeContent path own dependency content) =
      relativeText path own dependency (Text.decode content) := by
  dsimp only [relativeContent]
  split
  · next h =>
    have hSpliced := spliced_relativeText path own dependency (Text.decode content)
    rw [h] at hSpliced
    exact hSpliced.eq_of_nil.symm
  · exact Text.decode_encode _

section

variable {dependency dependency' : String → Resource}

theorem identityText_congr {options : CompileOptions} {path : String} {t : Text}
    (h : ∀ key ∈ (identityPlan options path t).map Planned.key,
      dependency key = dependency' key) :
    identityText options path dependency t = identityText options path dependency' t := by
  rw [identityText, passEdits_congr h, identityText]

theorem identityContent_congr {options : CompileOptions} {path : String} {content : ByteArray}
    (h : ∀ key ∈ (identityPlan options path (Text.decode content)).map Planned.key,
      dependency key = dependency' key) :
    identityContent options path dependency content =
      identityContent options path dependency' content := by
  simp only [identityContent, identityText_congr h]

theorem relativeText_congr {path own : String} {t : Text}
    (h : ∀ key ∈ (relativePlan path t).map Planned.key, dependency key = dependency' key) :
    relativeText path own dependency t = relativeText path own dependency' t := by
  rw [relativeText, passEdits_congr h, relativeText]

theorem relativeContent_congr {path own : String} {content : ByteArray}
    (h : ∀ key ∈ (relativePlan path (Text.decode content)).map Planned.key,
      dependency key = dependency' key) :
    relativeContent path own dependency content =
      relativeContent path own dependency' content := by
  simp only [relativeContent, relativeText_congr h]

end

/-! ## One compile -/

/-- Every kind has the compiler for templates or the one for assets. -/
def Compilers.BuiltIn (compilers : Compilers) : Prop :=
  ∀ kind, compilers.forKind kind = templateCompiler ∨ compilers.forKind kind = assetCompiler

/-- The compilers that a session starts with are the built-in ones. -/
theorem Compilers.builtIn_default : ({} : Compilers).BuiltIn := by
  intro kind
  cases kind with
  | template => exact .inl rfl
  | _ => exact .inr rfl

theorem templateCompiler_ne_assetCompiler : templateCompiler ≠ assetCompiler := by
  intro h
  have hRecipe := congrFun (congrFun (congrFun h {}) "") none
  change Recipe.ask (.emit .preCompile "") _ = Recipe.ask (.emit .preCompile "") _ at hRecipe
  injection hRecipe with _ hNext
  have hAnswer := congrFun hNext (.ok ())
  change Recipe.ask (.lookUp "") _ = Recipe.ask (.emit .compiled "") _ at hAnswer
  injection hAnswer with hRequest
  cases hRequest

/-- The paths of what the two passes over a template need, in the order in which they do. -/
def neededKeys (options : CompileOptions) (dependency : String → Resource) (r : Resource) :
    List String :=
  (identityPlan options r.path r.text ++
    relativePlan r.path (identityText options r.path dependency r.text)).map Planned.key

/-- What a compile by a rule makes of a pending resource, given the resources for the paths that
it needs; these are listed. -/
inductive Session.Makes (session : Session) (rule : Option Rule) (dependency : String → Resource)
    (r : Resource) : List String → Resource → Prop
  /-- The content of an asset, or of a permanent template, stays as it is. -/
  | plain {uri : String}
      (hPlain : r.permanent = true ∨ session.compilers.forKind r.kind = assetCompiler)
      (hUri : uriBy rule r.path = .ok uri) :
      Makes session rule dependency r [] { r with uri := some uri, state := .compiled }
  /-- A template is rewritten in two passes, the second of which depends on its URI. -/
  | template {uri : String} (hPermanent : r.permanent = false)
      (hTemplate : session.compilers.forKind r.kind = templateCompiler)
      (hUri : uriBy rule r.path = .ok uri) :
      Makes session rule dependency r (neededKeys session.options dependency r)
        { r with
          content := relativeContent r.path uri dependency
            (identityContent session.options r.path dependency r.content)
          uri := some uri
          state := .compiled }

namespace Session.Makes

variable {session : Session} {rule : Option Rule} {dependency dependency' : String → Resource}
  {r made made' : Resource} {keys keys' : List String}

theorem state_eq (h : session.Makes rule dependency r keys made) : made.state = .compiled := by
  cases h <;> rfl

/-- Two compiles of one resource need the same and make the same if what both of them need is the
same. -/
theorem unique (h : session.Makes rule dependency r keys made)
    (h' : session.Makes rule dependency' r keys' made')
    (hSame : ∀ key ∈ keys, key ∈ keys' → dependency key = dependency' key) :
    keys = keys' ∧ made = made' := by
  cases h with
  | @plain uri hPlain hUri =>
    cases h' with
    | plain hPlain' hUri' =>
      rw [hUri] at hUri'
      cases hUri'
      exact ⟨rfl, rfl⟩
    | template hPermanent hTemplate _ =>
      rcases hPlain with hPlain | hPlain
      · simp [hPlain] at hPermanent
      · exact absurd (hTemplate.symm.trans hPlain) templateCompiler_ne_assetCompiler
  | @template uri hPermanent hTemplate hUri =>
    cases h' with
    | plain hPlain' hUri' =>
      rcases hPlain' with hPlain' | hPlain'
      · simp [hPlain'] at hPermanent
      · exact absurd (hTemplate.symm.trans hPlain') templateCompiler_ne_assetCompiler
    | template _ _ hUri' =>
      rw [hUri] at hUri'
      cases hUri'
      simp only [neededKeys, List.map_append, List.mem_append] at hSame
      have hIdentity : ∀ key ∈ (identityPlan session.options r.path r.text).map Planned.key,
          dependency key = dependency' key :=
        fun key hKey => hSame key (.inl hKey) (.inl hKey)
      have hText := identityText_congr hIdentity
      have hContent : identityContent session.options r.path dependency r.content =
          identityContent session.options r.path dependency' r.content :=
        identityContent_congr hIdentity
      have hRelative : relativeContent r.path uri dependency
          (identityContent session.options r.path dependency' r.content) =
          relativeContent r.path uri dependency'
            (identityContent session.options r.path dependency' r.content) := by
        apply relativeContent_congr
        rw [decode_identityContent, ← Resource.text]
        intro key hKey
        refine hSame key (.inr ?_) (.inr hKey)
        rw [hText]
        exact hKey
      exact ⟨by rw [neededKeys, hText, neededKeys], by rw [hContent, hRelative]⟩

/-- Only what is needed matters. -/
theorem congr (h : session.Makes rule dependency r keys made)
    (hSame : ∀ key ∈ keys, dependency key = dependency' key) :
    session.Makes rule dependency' r keys made := by
  have hOther : ∃ keys' made', session.Makes rule dependency' r keys' made' := by
    cases h with
    | plain hPlain hUri => exact ⟨_, _, .plain hPlain hUri⟩
    | template hPermanent hTemplate hUri => exact ⟨_, _, .template hPermanent hTemplate hUri⟩
  obtain ⟨keys', made', h'⟩ := hOther
  obtain ⟨rfl, rfl⟩ := h.unique h' fun key hKey _ => hSame key hKey
  exact h'

end Session.Makes

end AssetLoom
