import AssetLoom.Resource
/-!
# The registry of resources

The resources of a build, each under its own path.

* `get?`, `insert`: look up and register.
* `setState`, `setUri`, `setContent`: the changes that a compile makes. They leave the paths, and
  every other resource, as they are.
-/

namespace AssetLoom

/-- Resources with different paths. -/
structure Registry where
  entries : List Resource := []
  paths_nodup : (entries.map Resource.path).Nodup := by simp

namespace Registry

/-- The resource registered for a path. -/
def get? (registry : Registry) (path : String) : Option Resource :=
  registry.entries.find? (·.path == path)

/-- Whether a resource is registered for a path. -/
def contains (registry : Registry) (path : String) : Bool :=
  (registry.get? path).isSome

/-- The number of resources. -/
def size (registry : Registry) : Nat :=
  registry.entries.length

/-- A path leads to the one resource that has it. -/
theorem get?_eq_some_iff {registry : Registry} {path : String} {r : Resource} :
    registry.get? path = some r ↔ r ∈ registry.entries ∧ r.path = path := by
  constructor
  · intro h
    exact ⟨List.mem_of_find?_eq_some h, by simpa using List.find?_some h⟩
  · rintro ⟨hmem, rfl⟩
    obtain ⟨entries, hnodup⟩ := registry
    simp only [get?] at hmem ⊢
    induction entries with
    | nil => simp at hmem
    | cons head rest ih =>
      simp only [List.map_cons, List.nodup_cons, List.mem_map, not_exists, not_and] at hnodup
      rcases List.mem_cons.mp hmem with rfl | hrest
      · simp
      · rw [List.find?_cons_of_neg (by simpa using fun h => hnodup.1 r hrest h.symm)]
        exact ih hnodup.2 hrest

theorem path_of_get? {registry : Registry} {path : String} {r : Resource}
    (h : registry.get? path = some r) : r.path = path :=
  (get?_eq_some_iff.mp h).2

theorem get?_eq_none_iff {registry : Registry} {path : String} :
    registry.get? path = none ↔ path ∉ registry.entries.map Resource.path := by
  simp [get?]

/-- Applies a function to the resource with the given path. -/
def change (path : String) (f : Resource → Resource) : Resource → Resource :=
  fun r => if r.path = path then f r else r

theorem map_path_change {path : String} {f : Resource → Resource}
    (hf : ∀ r, (f r).path = r.path) (entries : List Resource) :
    (entries.map (change path f)).map Resource.path = entries.map Resource.path := by
  rw [List.map_map]
  apply List.map_congr_left
  intro r _
  simp only [Function.comp, change]
  split
  · exact hf r
  · rfl

/-- Changes the resource that is registered for a path, but not its path. -/
def modify (registry : Registry) (path : String) (f : Resource → Resource)
    (hf : ∀ r, (f r).path = r.path) : Registry where
  entries := registry.entries.map (change path f)
  paths_nodup := by rw [map_path_change hf]; exact registry.paths_nodup

/-- Only the resource with the given path is looked up changed. -/
theorem get?_modify (registry : Registry) (path : String) (f : Resource → Resource)
    (hf : ∀ r, (f r).path = r.path) (q : String) :
    (registry.modify path f hf).get? q = (registry.get? q).map (change path f) := by
  have hpath (r : Resource) : (change path f r).path = r.path := by
    unfold change
    split
    · exact hf r
    · rfl
  simp only [get?, modify, List.find?_map]
  congr 2
  funext r
  simp only [Function.comp, hpath]

/-- The paths stay as they are. -/
theorem map_path_modify (registry : Registry) (path : String) (f : Resource → Resource)
    (hf : ∀ r, (f r).path = r.path) :
    (registry.modify path f hf).entries.map Resource.path =
      registry.entries.map Resource.path :=
  map_path_change hf registry.entries

/-- Only the resource with the given path changes. -/
theorem get?_modify_eq_ite (registry : Registry) (path : String) (f : Resource → Resource)
    (hf : ∀ r, (f r).path = r.path) (q : String) :
    (registry.modify path f hf).get? q =
      if q = path then (registry.get? q).map f else registry.get? q := by
  rw [get?_modify]
  cases h : registry.get? q with
  | none => simp
  | some r =>
    have hr := path_of_get? h
    by_cases hq : q = path
    · simp [change, hr, hq]
    · simp [change, hr, hq]

/-- Sets the compile state of a resource. -/
def setState (registry : Registry) (path : String) (state : CompileState) : Registry :=
  registry.modify path (fun r => { r with state }) fun _ => rfl

/-- Sets the URI of a resource. -/
def setUri (registry : Registry) (path uri : String) : Registry :=
  registry.modify path (fun r => { r with uri := some uri }) fun _ => rfl

/-- Sets the content of a resource to a text. -/
def setContent (registry : Registry) (path : String) (text : Text) : Registry :=
  registry.modify path (fun r => { r with content := Text.encode text }) fun _ => rfl

@[simp]
theorem map_path_setState (registry : Registry) (path : String) (state : CompileState) :
    (registry.setState path state).entries.map Resource.path =
      registry.entries.map Resource.path :=
  map_path_modify ..

@[simp]
theorem map_path_setUri (registry : Registry) (path uri : String) :
    (registry.setUri path uri).entries.map Resource.path =
      registry.entries.map Resource.path :=
  map_path_modify ..

@[simp]
theorem map_path_setContent (registry : Registry) (path : String) (text : Text) :
    (registry.setContent path text).entries.map Resource.path =
      registry.entries.map Resource.path :=
  map_path_modify ..

theorem get?_setState (registry : Registry) (path : String) (state : CompileState) (q : String) :
    (registry.setState path state).get? q =
      if q = path then (registry.get? q).map fun r => { r with state } else registry.get? q :=
  get?_modify_eq_ite ..

theorem get?_setUri (registry : Registry) (path uri q : String) :
    (registry.setUri path uri).get? q =
      if q = path then (registry.get? q).map fun r => { r with uri := some uri }
      else registry.get? q :=
  get?_modify_eq_ite ..

theorem get?_setContent (registry : Registry) (path : String) (text : Text) (q : String) :
    (registry.setContent path text).get? q =
      if q = path then (registry.get? q).map fun r => { r with content := Text.encode text }
      else registry.get? q :=
  get?_modify_eq_ite ..

/-- Registers a resource in the place of the one with the same path, if there is one. -/
def insert (registry : Registry) (r : Resource) : Registry :=
  if h : r.path ∈ registry.entries.map Resource.path then
    { entries := registry.entries.map fun old => if old.path = r.path then r else old
      paths_nodup := by
        have hmap : (registry.entries.map fun old => if old.path = r.path then r else old).map
            Resource.path = registry.entries.map Resource.path := by
          rw [List.map_map]
          apply List.map_congr_left
          intro old _
          simp only [Function.comp]
          split
          · next h => exact h.symm
          · rfl
        rw [hmap]
        exact registry.paths_nodup }
  else
    { entries := registry.entries ++ [r]
      paths_nodup := by
        rw [List.map_append, List.nodup_append]
        refine ⟨registry.paths_nodup, by simp, ?_⟩
        intro a ha b hb hab
        simp only [List.map_cons, List.map_nil, List.mem_singleton] at hb
        exact h (hb ▸ hab ▸ ha) }

/-- The registry of some resources; of two with the same path the later one counts. -/
def ofList (resources : List Resource) : Registry :=
  resources.foldl insert {}

/-- All paths, in ascending order. -/
def paths (registry : Registry) : List String :=
  (registry.entries.map Resource.path).mergeSort fun a b => a ≤ b

/-- The resources of one kind. -/
def ofKind (registry : Registry) (kind : ResourceKind) : List Resource :=
  registry.entries.filter (·.kind == kind)

/-- The number of resources that are compiled. -/
def compiledCount (registry : Registry) : Nat :=
  registry.entries.countP Resource.isCompiled

end Registry

end AssetLoom
