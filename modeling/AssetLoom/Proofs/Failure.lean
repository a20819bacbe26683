import AssetLoom.Proofs.Interruption

/-!
# Failures without a session

`Session.Fails` says with which error a compile fails, by recursion over what is needed: nothing
is remembered from one resource to the next, and only the paths of the open compiles are known. It
is to the errors what `Session.Builds` is to the results.

There is at most one such error (`Fails.unique`), and none for what can be built
(`Clear.not_fails`). From pending resources, and with observers that never fail, a session fails
with exactly this error (`compileRoot_error_iff_fails`): what has been compiled before makes no
difference to it.
-/

namespace AssetLoom

namespace View

theorem compiled_update_iff {view : View} {path q : String} {r busy : Resource}
    (hGet : view path = some r) (hState : r.state ≠ .compiled) (hBusy : busy.state ≠ .compiled) :
    Compiled (Function.update view path (some busy)) q ↔ Compiled view q := by
  by_cases hq : q = path
  · subst hq
    simp [Compiled, hGet, hState, hBusy]
  · rw [Compiled, Function.update_of_ne hq, Compiled]

/-- The same resources are registered as at first, and those on the stack are being compiled. -/
structure Tracks (sources : View) (stack : List String) (view : View) : Prop where
  registered : ∀ path, (view path).isSome = (sources path).isSome
  open_iff : ∀ path, (∃ r, view path = some r ∧ r.state = .compiling) ↔ path ∈ stack

section

variable {sources view : View} {stack : List String} {path : String}

theorem Tracks.none_iff (h : Tracks sources stack view) :
    view path = none ↔ sources path = none := by
  rw [← Option.not_isSome_iff_eq_none, h.registered, Option.not_isSome_iff_eq_none]

theorem Tracks.isSome_of_get {r : Resource} (h : Tracks sources stack view)
    (hGet : view path = some r) : (sources path).isSome := by
  rw [← h.registered, hGet]
  rfl

theorem Tracks.not_compiled (h : Tracks sources stack view) : ∀ q ∈ stack, ¬ Compiled view q := by
  rintro q hq ⟨r, hGet, hState⟩
  obtain ⟨r', hGet', hOpen⟩ := (h.open_iff q).mpr hq
  rw [hGet] at hGet'
  cases hGet'
  rw [hState] at hOpen
  cases hOpen

end

/-- All resources are pending, each under its own path. -/
def Unbuilt (view : View) : Prop :=
  ∀ path r, view path = some r → r.path = path ∧ r.state = .pending

theorem Unbuilt.not_compiled {view : View} (h : Unbuilt view) (path : String) :
    ¬ Compiled view path := by
  rintro ⟨r, hGet, hState⟩
  rw [(h path r hGet).2] at hState
  cases hState

end View

theorem Registry.unbuilt_of_pending {registry : Registry}
    (hPending : ∀ r ∈ registry.entries, r.state = .pending) : View.Unbuilt registry.get? :=
  fun _ r hGet => ⟨path_of_get? hGet, hPending r (get?_eq_some_iff.mp hGet).1⟩

namespace Session

variable {session : Session} {sources view last : View} {stack : List String} {path key : String}
  {r made : Resource} {e e' : CompileError} {demand : Demand}

/-- A resource can be built while the compiles on the stack are open: it needs none of them. -/
structure Clear (session : Session) (sources : View) (stack : List String) (path : String) :
    Prop where
  builds : ∃ made, session.Builds sources path made
  free : ∀ q ∈ stack, ¬ session.Needs sources path q

/-- With which error a session fails at what it is asked for, while the compiles on the stack are
open. -/
inductive Fails (session : Session) (sources : View) (e : CompileError) :
    List String → Demand → Prop
  | unknown {stack : List String} {key : String} (hGet : sources key = none)
      (hCause : e = .unknownRoot key) : Fails session sources e stack (.root key)
  | circle {stack : List String} {key : String} (hRegistered : (sources key).isSome)
      (hOpen : key ∈ stack) (hCause : e = Build.circle { stack } key) :
      Fails session sources e stack (.root key)
  | plain {stack : List String} {key : String} {r : Resource} (hGet : sources key = some r)
      (hNamed : r.path = key) (hFresh : key ∉ stack)
      (hPlain : r.permanent = true ∨ session.compilers.forKind r.kind = assetCompiler)
      (hCause : uriBy (session.rules.find? key) key = .error e) :
      Fails session sources e stack (.root key)
  | first {stack : List String} {key : String} {r : Resource}
      (hTemplate : session.Rewritable sources key r) (hFresh : key ∉ stack)
      (hKeys : Fails session sources e (stack ++ [key])
        (.pass key ((identityPlan session.options key r.text).map Planned.key))) :
      Fails session sources e stack (.root key)
  | between {stack : List String} {key : String} {r : Resource}
      (hTemplate : session.Rewritable sources key r) (hFresh : key ∉ stack)
      (hFirst : ∀ k ∈ (identityPlan session.options key r.text).map Planned.key,
        session.Clear sources (stack ++ [key]) k)
      (hCause : uriBy (session.rules.find? key) key = .error e) :
      Fails session sources e stack (.root key)
  | second {stack : List String} {key uri : String} {r : Resource}
      {dependency : String → Resource} (hTemplate : session.Rewritable sources key r)
      (hFresh : key ∉ stack)
      (hFirst : ∀ k ∈ (identityPlan session.options key r.text).map Planned.key,
        session.Clear sources (stack ++ [key]) k)
      (hBuilds : ∀ k ∈ (identityPlan session.options key r.text).map Planned.key,
        session.Builds sources k (dependency k))
      (hUri : uriBy (session.rules.find? key) key = .ok uri)
      (hKeys : Fails session sources e (stack ++ [key]) (.pass key ((relativePlan key
        (identityText session.options key dependency r.text)).map Planned.key))) :
      Fails session sources e stack (.root key)
  | missing {stack rest : List String} {referrer key : String} (hGet : sources key = none)
      (hCause : e = .unresolved key referrer) :
      Fails session sources e stack (.pass referrer (key :: rest))
  | destination {stack rest : List String} {referrer key : String}
      (hRegistered : (sources key).isSome) (hCause : session.destinationOf key = .error e) :
      Fails session sources e stack (.pass referrer (key :: rest))
  | within {stack rest : List String} {referrer key : String} {target : Option String}
      (hTarget : session.destinationOf key = .ok target) (hRegistered : (sources key).isSome)
      (hKey : Fails session sources e stack (.root key)) :
      Fails session sources e stack (.pass referrer (key :: rest))
  | later {stack rest : List String} {referrer key : String}
      (hClear : session.Clear sources stack key)
      (hRest : Fails session sources e stack (.pass referrer rest)) :
      Fails session sources e stack (.pass referrer (key :: rest))

/-! ## What can be built does not fail -/

/-- What is built of a template is what the two passes make of its text. -/
theorem Rewritable.builds_iff (h : session.Rewritable sources path r) :
    session.Builds sources path made ↔ ∃ dependency uri,
      (∀ key ∈ neededKeys session.options dependency r,
        session.Builds sources key (dependency key)) ∧
      uriBy (session.rules.find? path) path = .ok uri ∧
      made = { r with
        content := relativeContent path uri dependency
          (identityContent session.options path dependency r.content)
        uri := some uri
        state := .compiled } := by
  obtain ⟨hGet, rfl, -, hPermanent, hTemplate⟩ := h
  constructor
  · rintro (⟨hGet', hMakes, hKeys⟩)
    rw [hGet] at hGet'
    cases hGet'
    cases hMakes with
    | plain hPlain _ =>
      rcases hPlain with hPlain | hPlain
      · simp [hPlain] at hPermanent
      · exact absurd (hTemplate.symm.trans hPlain) templateCompiler_ne_assetCompiler
    | template _ _ hUri => exact ⟨_, _, hKeys, hUri, rfl⟩
  · rintro ⟨dependency, uri, hKeys, hUri, rfl⟩
    exact .intro hGet (.template hPermanent hTemplate hUri) hKeys

theorem mem_neededKeys {options : CompileOptions} {dependency : String → Resource} :
    key ∈ neededKeys options dependency r ↔
      key ∈ (identityPlan options r.path r.text).map Planned.key ∨
        key ∈ (relativePlan r.path (identityText options r.path dependency r.text)).map
          Planned.key := by
  rw [neededKeys, List.map_append, List.mem_append]

/-- What a template that can be built uses is what its two passes plan. -/
theorem Rewritable.uses_iff (h : session.Rewritable sources path r)
    (hMade : session.Builds sources path made) {dependency : String → Resource}
    (hFirst : ∀ k ∈ (identityPlan session.options path r.text).map Planned.key,
      session.Builds sources k (dependency k)) :
    session.Uses sources path key ↔ key ∈ neededKeys session.options dependency r := by
  obtain ⟨dependency', uri, hKeys, hUri, -⟩ := h.builds_iff.mp hMade
  have hNamed := h.named
  subst hNamed
  have hText : identityText session.options r.path dependency' r.text =
      identityText session.options r.path dependency r.text := by
    apply identityText_congr
    intro k hk
    exact (hKeys k (mem_neededKeys.mpr (.inl hk))).unique (hFirst k hk)
  have hMakes : session.Makes (session.rules.find? r.path) dependency' r
      (neededKeys session.options dependency' r) _ :=
    .template h.permanent h.template hUri
  have hSame : neededKeys session.options dependency' r =
      neededKeys session.options dependency r := by
    rw [neededKeys, hText, neededKeys]
  rw [← hSame]
  constructor
  · exact Builds.mem_of_uses h.get hMakes hKeys
  · intro hKey
    exact ⟨r, _, _, dependency', h.get, hMakes, hKeys, hKey⟩

/-- What a template that can be built plans for its first pass can be built. -/
theorem Rewritable.builds_first (h : session.Rewritable sources path r)
    (hMade : session.Builds sources path made) :
    ∃ dependency : String → Resource,
      ∀ k ∈ (identityPlan session.options path r.text).map Planned.key,
        session.Builds sources k (dependency k) := by
  obtain ⟨dependency, _, hKeys, -⟩ := h.builds_iff.mp hMade
  have hNamed := h.named
  subst hNamed
  exact ⟨dependency, fun k hk => hKeys k (mem_neededKeys.mpr (.inl hk))⟩

theorem Builds.uri_of_named (h : session.Builds sources path made) (hGet : sources path = some r)
    (hNamed : r.path = path) : ∃ uri, uriBy (session.rules.find? path) path = .ok uri := by
  cases h with
  | intro hGet' hMakes _ =>
    rw [hGet] at hGet'
    cases hGet'
    subst hNamed
    cases hMakes with
    | plain _ hUri => exact ⟨_, hUri⟩
    | template _ _ hUri => exact ⟨_, hUri⟩

theorem Builds.destination (h : session.Builds sources path made) :
    ∃ target, session.destinationOf path = .ok target := by
  obtain ⟨uri, hUri⟩ := h.uri
  exact destination_of_uriBy hUri

namespace Clear

/-- What a resource uses is clear while the resource itself is open. -/
theorem enter (h : session.Clear sources stack path) (hUses : session.Uses sources path key) :
    session.Clear sources (stack ++ [path]) key where
  builds := by
    obtain ⟨_, _, _, dependency, _, _, hKeys, hKey⟩ := hUses
    exact ⟨dependency key, hKeys key hKey⟩
  free := by
    intro q hq hNeeds
    obtain ⟨made, hMade⟩ := h.builds
    rcases List.mem_append.mp hq with hStack | hSelf
    · exact h.free q hStack (.head hUses hNeeds)
    · rw [List.mem_singleton] at hSelf
      subst hSelf
      exact hMade.not_circular hUses hNeeds

/-- What can be built does not fail. -/
theorem not_fails (hClear : ∀ key ∈ demand.keys, session.Clear sources stack key) :
    ¬ session.Fails sources e stack demand := by
  intro hFails
  -- What a clear template uses is clear while the template is open, so the failure has no place.
  induction hFails with
  | @unknown _ key hGet _ =>
    obtain ⟨made, hMade⟩ := (hClear key (by simp [Demand.keys])).builds
    have hRegistered := hMade.registered
    simp [hGet] at hRegistered
  | @circle _ key _ hOpen _ =>
    exact (hClear key (by simp [Demand.keys])).free key hOpen .refl
  | @plain _ key r hGet hNamed _ _ hCause =>
    obtain ⟨made, hMade⟩ := (hClear key (by simp [Demand.keys])).builds
    obtain ⟨uri, hUri⟩ := hMade.uri_of_named hGet hNamed
    rw [hCause] at hUri
    cases hUri
  | @first _ key r hTemplate _ _ ih =>
    have hSelf := hClear key (by simp [Demand.keys])
    obtain ⟨made, hMade⟩ := hSelf.builds
    obtain ⟨dependency, hFirst⟩ := hTemplate.builds_first hMade
    refine ih fun k hk => hSelf.enter ((hTemplate.uses_iff hMade hFirst).mpr ?_)
    rw [mem_neededKeys, hTemplate.named]
    exact .inl hk
  | @between _ key r hTemplate _ _ hCause =>
    obtain ⟨made, hMade⟩ := (hClear key (by simp [Demand.keys])).builds
    obtain ⟨uri, hUri⟩ := hMade.uri_of_named hTemplate.get hTemplate.named
    rw [hCause] at hUri
    cases hUri
  | @second _ key _ r dependency hTemplate _ _ hBuilds _ _ ih =>
    have hSelf := hClear key (by simp [Demand.keys])
    obtain ⟨made, hMade⟩ := hSelf.builds
    refine ih fun k hk => hSelf.enter ((hTemplate.uses_iff hMade hBuilds).mpr ?_)
    rw [mem_neededKeys, hTemplate.named]
    exact .inr hk
  | @missing _ _ _ key hGet _ =>
    obtain ⟨made, hMade⟩ := (hClear key (by simp [Demand.keys])).builds
    have hRegistered := hMade.registered
    simp [hGet] at hRegistered
  | @destination _ _ _ key _ hCause =>
    obtain ⟨made, hMade⟩ := (hClear key (by simp [Demand.keys])).builds
    obtain ⟨target, hTarget⟩ := hMade.destination
    rw [hCause] at hTarget
    cases hTarget
  | within _ _ _ ih => exact ih fun k hk => hClear k (by simp_all [Demand.keys])
  | later _ _ ih => exact ih fun k hk => hClear k (List.mem_cons_of_mem _ hk)

end Clear

/-! ## There is only one error -/

theorem Rewritable.unique {r' : Resource} (h : session.Rewritable sources path r)
    (h' : session.Rewritable sources path r') : r = r' :=
  Option.some.inj (h.get.symm.trans h'.get)

theorem Rewritable.not_plain {r' : Resource} (h : session.Rewritable sources path r)
    (hGet : sources path = some r') :
    ¬ (r'.permanent = true ∨ session.compilers.forKind r'.kind = assetCompiler) := by
  rw [h.get] at hGet
  cases hGet
  rintro (hPermanent | hAsset)
  · simp [h.permanent] at hPermanent
  · exact templateCompiler_ne_assetCompiler (h.template.symm.trans hAsset)

theorem Fails.of_none (h : session.Fails sources e stack (.root key)) (hGet : sources key = none) :
    e = .unknownRoot key := by
  cases h with
  | unknown _ hCause => exact hCause
  | circle hRegistered _ _ => simp [hGet] at hRegistered
  | plain hGet' _ _ _ _ => simp [hGet] at hGet'
  | first hTemplate _ _ => simp [hTemplate.get] at hGet
  | between hTemplate _ _ _ => simp [hTemplate.get] at hGet
  | second hTemplate _ _ _ _ _ => simp [hTemplate.get] at hGet

theorem Fails.of_open (h : session.Fails sources e stack (.root key))
    (hRegistered : (sources key).isSome) (hOpen : key ∈ stack) :
    e = Build.circle { stack } key := by
  cases h with
  | unknown hGet _ => simp [hGet] at hRegistered
  | circle _ _ hCause => exact hCause
  | plain _ _ hFresh _ _ => exact absurd hOpen hFresh
  | first _ hFresh _ => exact absurd hOpen hFresh
  | between _ hFresh _ _ => exact absurd hOpen hFresh
  | second _ hFresh _ _ _ _ => exact absurd hOpen hFresh

theorem Fails.of_plain (h : session.Fails sources e stack (.root key))
    (hGet : sources key = some r) (hFresh : key ∉ stack)
    (hPlain : r.permanent = true ∨ session.compilers.forKind r.kind = assetCompiler) :
    uriBy (session.rules.find? key) key = .error e := by
  cases h with
  | unknown hGet' _ => simp [hGet] at hGet'
  | circle _ hOpen _ => exact absurd hOpen hFresh
  | plain _ _ _ _ hCause => exact hCause
  | first hTemplate _ _ => exact absurd hPlain (hTemplate.not_plain hGet)
  | between hTemplate _ _ _ => exact absurd hPlain (hTemplate.not_plain hGet)
  | second hTemplate _ _ _ _ _ => exact absurd hPlain (hTemplate.not_plain hGet)

/-- A template fails in its first pass, for want of a URI, or in its second pass. -/
theorem Fails.of_template (h : session.Fails sources e stack (.root key))
    (hTemplate : session.Rewritable sources key r) (hFresh : key ∉ stack) :
    session.Fails sources e (stack ++ [key])
        (.pass key ((identityPlan session.options key r.text).map Planned.key)) ∨
      (∀ k ∈ (identityPlan session.options key r.text).map Planned.key,
        session.Clear sources (stack ++ [key]) k) ∧
      (uriBy (session.rules.find? key) key = .error e ∨ ∃ dependency uri,
        (∀ k ∈ (identityPlan session.options key r.text).map Planned.key,
          session.Builds sources k (dependency k)) ∧
        uriBy (session.rules.find? key) key = .ok uri ∧
        session.Fails sources e (stack ++ [key]) (.pass key ((relativePlan key
          (identityText session.options key dependency r.text)).map Planned.key))) := by
  cases h with
  | unknown hGet _ => simp [hTemplate.get] at hGet
  | circle _ hOpen _ => exact absurd hOpen hFresh
  | plain hGet _ _ hPlain _ => exact absurd hPlain (hTemplate.not_plain hGet)
  | first hTemplate' _ hKeys =>
    cases hTemplate.unique hTemplate'
    exact .inl hKeys
  | between hTemplate' _ hFirst hCause =>
    cases hTemplate.unique hTemplate'
    exact .inr ⟨hFirst, .inl hCause⟩
  | second hTemplate' _ hFirst hBuilds hUri hKeys =>
    cases hTemplate.unique hTemplate'
    exact .inr ⟨hFirst, .inr ⟨_, _, hBuilds, hUri, hKeys⟩⟩

/-- A pass fails at the first resource, or at a later one. -/
theorem Fails.of_pass {referrer : String} {rest : List String}
    (h : session.Fails sources e stack (.pass referrer (key :: rest))) :
    sources key = none ∧ e = .unresolved key referrer ∨
      (sources key).isSome ∧ session.destinationOf key = .error e ∨
      (sources key).isSome ∧ (∃ target, session.destinationOf key = .ok target) ∧
        session.Fails sources e stack (.root key) ∨
      session.Clear sources stack key ∧ session.Fails sources e stack (.pass referrer rest) := by
  cases h with
  | missing hGet hCause => exact .inl ⟨hGet, hCause⟩
  | destination hRegistered hCause => exact .inr (.inl ⟨hRegistered, hCause⟩)
  | within hTarget hRegistered hKey =>
    exact .inr (.inr (.inl ⟨hRegistered, ⟨_, hTarget⟩, hKey⟩))
  | later hClear hRest => exact .inr (.inr (.inr ⟨hClear, hRest⟩))

theorem Clear.registered (h : session.Clear sources stack path) : (sources path).isSome := by
  obtain ⟨made, hMade⟩ := h.builds
  exact hMade.registered

theorem Clear.destination_ne_error (h : session.Clear sources stack path) :
    session.destinationOf path ≠ .error e := by
  obtain ⟨made, hMade⟩ := h.builds
  obtain ⟨target, hTarget⟩ := hMade.destination
  rw [hTarget]
  nofun

theorem Clear.root_not_fails (h : session.Clear sources stack path) :
    ¬ session.Fails sources e stack (.root path) :=
  not_fails (by simpa [Demand.keys] using h)

/-- A session fails with one error. -/
theorem Fails.unique (h : session.Fails sources e stack demand)
    (h' : session.Fails sources e' stack demand) : e = e' := by
  -- What comes before the one failure is clear, so the other one cannot be there.
  induction h with
  | unknown hGet hCause => exact hCause.trans (h'.of_none hGet).symm
  | circle hRegistered hOpen hCause => exact hCause.trans (h'.of_open hRegistered hOpen).symm
  | plain hGet _ hFresh hPlain hCause =>
    exact Except.error.inj (hCause.symm.trans (h'.of_plain hGet hFresh hPlain))
  | first hTemplate hFresh hKeys ih =>
    rcases h'.of_template hTemplate hFresh with hFirst | ⟨hClear, -⟩
    · exact ih hFirst
    · exact absurd hKeys (Clear.not_fails hClear)
  | between hTemplate hFresh hFirst hCause =>
    rcases h'.of_template hTemplate hFresh with hKeys | ⟨-, hCause' | ⟨_, _, _, hUri, -⟩⟩
    · exact absurd hKeys (Clear.not_fails hFirst)
    · exact Except.error.inj (hCause.symm.trans hCause')
    · cases hCause.symm.trans hUri
  | second hTemplate hFresh hFirst hBuilds hUri hKeys ih =>
    rcases h'.of_template hTemplate hFresh with hFail | ⟨-, hCause | ⟨_, _, hBuilds', _, hKeys'⟩⟩
    · exact absurd hFail (Clear.not_fails hFirst)
    · cases hUri.symm.trans hCause
    · refine ih ?_
      rwa [identityText_congr fun k hk => (hBuilds k hk).unique (hBuilds' k hk)]
  | missing hGet hCause =>
    rcases h'.of_pass with ⟨_, hCause'⟩ | ⟨hOther, -⟩ | ⟨hOther, -⟩ | ⟨hClear, -⟩
    · exact hCause.trans hCause'.symm
    · simp [hGet] at hOther
    · simp [hGet] at hOther
    · have hRegistered := hClear.registered
      simp [hGet] at hRegistered
  | destination hRegistered hCause =>
    rcases h'.of_pass with ⟨hOther, -⟩ | ⟨_, hCause'⟩ | ⟨_, ⟨_, hTarget⟩, -⟩ | ⟨hClear, -⟩
    · simp [hOther] at hRegistered
    · exact Except.error.inj (hCause.symm.trans hCause')
    · cases hCause.symm.trans hTarget
    · exact absurd hCause hClear.destination_ne_error
  | within hTarget hRegistered hKey ih =>
    rcases h'.of_pass with ⟨hOther, -⟩ | ⟨_, hCause⟩ | ⟨_, _, hKey'⟩ | ⟨hClear, -⟩
    · simp [hOther] at hRegistered
    · cases hTarget.symm.trans hCause
    · exact ih hKey'
    · exact absurd hKey hClear.root_not_fails
  | later hClear hRest ih =>
    rcases h'.of_pass with ⟨hOther, -⟩ | ⟨_, hCause⟩ | ⟨_, _, hKey⟩ | ⟨-, hRest'⟩
    · have hRegistered := hClear.registered
      simp [hOther] at hRegistered
    · exact absurd hCause hClear.destination_ne_error
    · exact absurd hKey hClear.root_not_fails
    · exact ih hRest'

/-! ## Sessions that fail -/

/-- What is compiled is what it is built to, and so is all that it uses. -/
structure Sound (session : Session) (sources view : View) : Prop where
  builds : ∀ path, View.Compiled view path → session.Builds sources path (View.resource view path)
  closed : ∀ path key, View.Compiled view path → session.Uses sources path key →
    View.Compiled view key

/-- On the way from the sources, while the compiles on the stack are open: what is pending is as
it was. -/
structure Underway (session : Session) (sources : View) (stack : List String) (view : View) :
    Prop extends session.Sound sources view, View.Tracks sources stack view where
  pending : ∀ path r, view path = some r → r.state = .pending → sources path = some r

namespace Sound

/-- All that a compiled resource needs is compiled. -/
theorem compiled_of_needs (h : session.Sound sources view)
    (hCompiled : View.Compiled view path) (hNeeds : session.Needs sources path key) :
    View.Compiled view key := by
  induction hNeeds with
  | refl => exact hCompiled
  | tail _ hUses ih => exact h.closed _ _ ih hUses

theorem clear (h : session.Sound sources view) (hCompiled : View.Compiled view path)
    (hStack : ∀ q ∈ stack, ¬ View.Compiled view q) : session.Clear sources stack path where
  builds := ⟨_, h.builds path hCompiled⟩
  free q hq hNeeds := hStack q hq (h.compiled_of_needs hCompiled hNeeds)

end Sound

namespace Underway

theorem settled (h : session.Underway sources stack view) : session.Settled sources view where
  registered := h.registered
  pending := h.pending
  compiled path r hGet hState := by
    rw [← View.resource_eq hGet]
    exact h.builds path ⟨r, hGet, hState⟩

theorem of_unbuilt (h : View.Unbuilt sources) : session.Underway sources [] sources where
  builds path hCompiled := absurd hCompiled (h.not_compiled path)
  closed path _ hCompiled := absurd hCompiled (h.not_compiled path)
  registered _ := rfl
  open_iff path := by
    simp only [List.not_mem_nil, iff_false, not_exists, not_and]
    intro r hGet hState
    rw [(h path r hGet).2] at hState
    cases hState
  pending _ _ hGet _ := hGet

theorem completes {keys : List String} (h : session.Underway sources stack view)
    (hCompletes : session.Completes keys view last) : session.Underway sources stack last := by
  have hSettled := h.settled.completes hCompletes
  refine ⟨⟨fun path => hSettled.builds, ?_⟩, ⟨hSettled.registered, ?_⟩, hSettled.pending⟩
  · intro path key hCompiled hUses
    rcases hCompletes.advances path with hSame | ⟨r, used, made, hGet, hPending, _, hMakes, hUsed⟩
    · rw [View.Compiled, hSame] at hCompiled
      exact hCompletes.advances.compiled (h.closed path key hCompiled hUses)
    · exact hUsed key (Builds.mem_of_uses (h.pending path r hGet hPending) hMakes
        (fun k hk => hSettled.builds (hUsed k hk)) hUses)
  · intro path
    rw [← h.open_iff]
    constructor
    · rintro ⟨r, hGet, hState⟩
      rcases hCompletes.advances path with hSame | ⟨_, _, made, _, _, hMade, hMakes, -⟩
      · exact ⟨r, hSame ▸ hGet, hState⟩
      · rw [hGet] at hMade
        cases hMade
        rw [hMakes.state_eq] at hState
        cases hState
    · rintro ⟨r, hGet, hState⟩
      exact ⟨r, hCompletes.advances.keeps hGet (by simp [hState]), hState⟩

/-- A resource that is not compiled is opened, or changed while it is open. -/
theorem update {stack' : List String} {busy : Resource} (h : session.Underway sources stack view)
    (hGet : view path = some r) (hState : r.state ≠ .compiled) (hBusy : busy.state = .compiling)
    (hStack : ∀ q, q ∈ stack' ↔ q = path ∨ q ∈ stack) :
    session.Underway sources stack' (Function.update view path (some busy)) := by
  have hSettled : session.Settled sources (Function.update view path (some busy)) :=
    h.settled.update (by simp [hGet]) (by simp [hBusy]) (by simp [hBusy])
  refine ⟨⟨fun path => hSettled.builds, ?_⟩, ⟨hSettled.registered, ?_⟩, hSettled.pending⟩
  · intro q key hCompiled hUses
    rw [View.compiled_update_iff hGet hState (by simp [hBusy])] at hCompiled ⊢
    exact h.closed q key hCompiled hUses
  · intro q
    rw [hStack, ← h.open_iff]
    by_cases hq : q = path
    · subst hq
      simp [hBusy]
    · simp [hq]

theorem enter (h : session.Underway sources stack view)
    (hTemplate : session.Rewritable view path r) :
    session.Underway sources (stack ++ [path])
      (Function.update view path (some { r with state := .compiling })) :=
  h.update hTemplate.get (by simp [hTemplate.pending]) rfl fun q => by simp [or_comm]

theorem rewritable (h : session.Underway sources stack view)
    (hTemplate : session.Rewritable view path r) : session.Rewritable sources path r :=
  ⟨h.pending path r hTemplate.get hTemplate.pending, hTemplate.named, hTemplate.pending,
    hTemplate.permanent, hTemplate.template⟩

/-- What is pending is not open. -/
theorem fresh (h : session.Underway sources stack view) (hGet : view path = some r)
    (hState : r.state = .pending) : path ∉ stack := by
  rw [← h.open_iff]
  rintro ⟨r', hGet', hOpen⟩
  rw [hGet] at hGet'
  cases hGet'
  rw [hState] at hOpen
  cases hOpen

end Underway

/-- A session fails with the error that there is without it. -/
theorem Halts.fails (h : session.Halts e stack demand view last)
    (hUnderway : session.Underway sources stack view) : session.Fails sources e stack demand := by
  induction h with
  | unknown hGet hCause => exact .unknown (hUnderway.none_iff.mp hGet) hCause
  | circle hGet hState hCause =>
    have hOpen := (hUnderway.open_iff _).mp ⟨_, hGet, hState⟩
    exact .circle (hUnderway.isSome_of_get hGet) hOpen hCause
  | plain hGet hNamed hState hPlain hCause =>
    exact .plain (hUnderway.pending _ _ hGet hState) hNamed (hUnderway.fresh hGet hState) hPlain
      hCause
  | first hTemplate _ ih =>
    exact .first (hUnderway.rewritable hTemplate)
      (hUnderway.fresh hTemplate.get hTemplate.pending) (ih (hUnderway.enter hTemplate))
  | between hTemplate hKeys _ hCause =>
    have hInner := (hUnderway.enter hTemplate).completes hKeys
    exact .between (hUnderway.rewritable hTemplate)
      (hUnderway.fresh hTemplate.get hTemplate.pending)
      (fun k hk => hInner.clear (hKeys.compiled k hk) hInner.not_compiled) hCause
  | second hTemplate hFirst hContent hUri _ ih =>
    have hInner := (hUnderway.enter hTemplate).completes hFirst
    have hOpen := hFirst.advances.keeps (Function.update_self ..) (by simp)
    have hKeys := ih (hInner.update hOpen (by simp) rfl (by simp))
    rw [hContent, decode_identityContent] at hKeys
    exact .second (hUnderway.rewritable hTemplate)
      (hUnderway.fresh hTemplate.get hTemplate.pending)
      (fun k hk => hInner.clear (hFirst.compiled k hk) hInner.not_compiled)
      (fun k hk => hInner.builds k (hFirst.compiled k hk)) hUri hKeys
  | missing hGet hCause => exact .missing (hUnderway.none_iff.mp hGet) hCause
  | destination hGet hCause => exact .destination (hUnderway.isSome_of_get hGet) hCause
  | within hTarget hSome _ ih =>
    exact .within hTarget (hUnderway.registered _ ▸ hSome) (ih hUnderway)
  | later hFirst _ ih =>
    have hMiddle := hUnderway.completes hFirst
    exact .later (hMiddle.clear (hFirst.compiled _ List.mem_cons_self) hMiddle.not_compiled)
      (ih hMiddle)

section

variable (hBuiltIn : session.compilers.BuiltIn) (hQuiet : session.Quiet) {root : String}
  {build : Build} (hStack : build.stack = [])
include hBuiltIn hQuiet

/-- Whatever has been compiled before, a root is compiled exactly if it can be built. -/
theorem Underway.compileRoot_ok_iff (h : session.Underway sources [] build.resources.get?) :
    (∃ last, session.compileRoot root build = (.ok (), last)) ↔
      ∃ made, session.Builds sources root made := by
  constructor
  · rintro ⟨last, hOk⟩
    have hCompletes := compileRoot_completes hBuiltIn hOk
    exact ⟨_, (h.completes hCompletes).builds root
      (hCompletes.compiled root List.mem_cons_self)⟩
  · rintro ⟨made, hMade⟩
    refine hMade.compile_ok hBuiltIn hQuiet build ⟨h.settled, ?_⟩
    intro q hOpen
    cases (h.open_iff q).mp (Registry.state?_eq_some_iff.mp hOpen)

include hStack

/-- Whatever has been compiled before, a root fails with the error that there is without a
session. -/
theorem Underway.compileRoot_error_iff (h : session.Underway sources [] build.resources.get?) :
    (∃ last, session.compileRoot root build = (.error e, last)) ↔
      session.Fails sources e [] (.root root) := by
  have hFails : ∀ e last, session.compileRoot root build = (.error e, last) →
      session.Fails sources e [] (.root root) := by
    intro e last hError
    have hHalts := compile_halts hBuiltIn hQuiet hError
    rw [hStack] at hHalts
    exact hHalts.fails h
  constructor
  · rintro ⟨last, hError⟩
    exact hFails e last hError
  · intro hExpected
    rcases hRun : session.compileRoot root build with ⟨outcome, last⟩
    cases outcome with
    | ok =>
      have hClear : session.Clear sources [] root :=
        ⟨(h.compileRoot_ok_iff hBuiltIn hQuiet).mp ⟨last, hRun⟩, by simp⟩
      exact absurd hExpected hClear.root_not_fails
    | error e' =>
      have hSame := (hFails e' last hRun).unique hExpected
      exact ⟨last, hSame ▸ rfl⟩

end

/-- From resources that are all pending, with observers that never fail: a root fails with the one
error that there is without a session. -/
theorem compileRoot_error_iff_fails (session : Session) (hBuiltIn : session.compilers.BuiltIn)
    (hQuiet : session.Quiet) (root : String) (build : Build) (hStack : build.stack = [])
    (hPending : ∀ r ∈ build.resources.entries, r.state = .pending) (e : CompileError) :
    (∃ last, session.compileRoot root build = (.error e, last)) ↔
      session.Fails build.resources.get? e [] (.root root) :=
  (Underway.of_unbuilt (Registry.unbuilt_of_pending hPending)).compileRoot_error_iff hBuiltIn hQuiet
    hStack

end Session

end AssetLoom
