import AssetLoom.Config.Load
import Mathlib.Data.List.Forall2

/-!
# Validation and rules

The patterns of a configuration are read twice: when it is validated, and when its rules are made.
Both times the same patterns are faulty, and the same is said about them
(`validate_agrees_with_ruleSet`), so that the rules of a configuration that has been loaded can
always be made.

The statement does not go through the lists as the two do. It compares both with the faults
themselves, one for each entry whose pattern cannot be read (`Faults`), and the rules with the
entries that they are made of (`RuleEntry.Makes`).
-/

namespace AssetLoom

/-! ## Entries and their rules -/

namespace RuleEntry

variable {entry : RuleEntry} {rule other : Rule} {path : String} {fault : Pattern.Fault}

/-- The pattern of the entry can be read, and has been found in the path. -/
def Matches (entry : RuleEntry) (path : String) : Prop :=
  ∃ pattern, Pattern.parse? entry.pattern = .ok pattern ∧ pattern.isMatch path.toList = true

/-- The rule has the pattern of the entry, and its destination. -/
structure Makes (entry : RuleEntry) (rule : Rule) : Prop where
  pattern : Pattern.parse? entry.pattern = .ok rule.pattern
  target : rule.target = entry.target

theorem Makes.unique (h : entry.Makes rule) (h' : entry.Makes other) : rule = other := by
  obtain ⟨pattern, target⟩ := rule
  obtain ⟨pattern', target'⟩ := other
  obtain rfl : pattern = pattern' := Except.ok.inj (h.pattern.symm.trans h'.pattern)
  obtain rfl : target = target' := h.target.trans h'.target.symm
  rfl

theorem Makes.matches_iff (h : entry.Makes rule) :
    entry.Matches path ↔ rule.matchesPath path = true := by
  constructor
  · rintro ⟨pattern, hPattern, hMatch⟩
    obtain rfl : pattern = rule.pattern := Except.ok.inj (hPattern.symm.trans h.pattern)
    exact hMatch
  · exact fun hMatch => ⟨rule.pattern, h.pattern, hMatch⟩

/-- What is wrong with the pattern of the entry. -/
def fault? (entry : RuleEntry) : Option Pattern.Fault :=
  match Pattern.parse? entry.pattern with
  | .ok _ => none
  | .error fault => some fault

theorem fault?_eq_some_iff :
    entry.fault? = some fault ↔ Pattern.parse? entry.pattern = .error fault := by
  unfold fault?
  split <;> simp_all

end RuleEntry

namespace RuleSet

variable {entries : List RuleEntry} {rules : RuleSet} {rule : Rule} {path : String}

theorem find?_cons (rule : Rule) (rules : RuleSet) (path : String) :
    RuleSet.find? (rule :: rules) path =
      if rule.matchesPath path = true then some rule else rules.find? path := by
  rw [RuleSet.find?, List.find?_cons]
  cases rule.matchesPath path <;> rfl

/-- The first entry that matches has made the rule that applies. -/
theorem find?_eq_some_iff (h : List.Forall₂ RuleEntry.Makes entries rules) :
    rules.find? path = some rule ↔ ∃ (i : Nat) (entry : RuleEntry),
      entries[i]? = some entry ∧ entry.Makes rule ∧ entry.Matches path ∧
        ∀ j < i, ∀ earlier, entries[j]? = some earlier → ¬earlier.Matches path := by
  -- The places of all entries but the first are one less in the rest.
  induction h with
  | nil => simp [RuleSet.find?]
  | @cons entry made entries rules hMakes _ ih =>
    rw [find?_cons]
    by_cases hMatch : made.matchesPath path = true
    · rw [if_pos hMatch]
      constructor
      · intro hRule
        obtain rfl := Option.some.inj hRule
        exact ⟨0, entry, rfl, hMakes, hMakes.matches_iff.mpr hMatch, nofun⟩
      · rintro ⟨_ | i, found, hEntry, hFound, -, hFirst⟩
        · obtain rfl := Option.some.inj hEntry
          rw [hMakes.unique hFound]
        · exact absurd (hMakes.matches_iff.mpr hMatch) (hFirst 0 (by omega) entry rfl)
    · rw [if_neg hMatch]
      refine ih.trans ⟨?_, ?_⟩
      · rintro ⟨i, found, hEntry, hFound, hPath, hFirst⟩
        refine ⟨i + 1, found, hEntry, hFound, hPath, ?_⟩
        rintro (_ | j) hj earlier hEarlier
        · obtain rfl := Option.some.inj hEarlier
          exact hMakes.matches_iff.not.mpr hMatch
        · exact hFirst j (by omega) earlier hEarlier
      · rintro ⟨_ | i, found, hEntry, hFound, hPath, hFirst⟩
        · obtain rfl := Option.some.inj hEntry
          exact absurd (hMakes.matches_iff.mp hPath) hMatch
        · exact ⟨i, found, hEntry, hFound, hPath,
            fun j hj earlier hEarlier => hFirst (j + 1) (by omega) earlier hEarlier⟩

theorem find?_eq_none_iff (h : List.Forall₂ RuleEntry.Makes entries rules) :
    rules.find? path = none ↔ ∀ entry ∈ entries, ¬entry.Matches path := by
  induction h with
  | nil => simp [RuleSet.find?]
  | cons hMakes _ ih =>
    rw [RuleSet.find?, List.find?_eq_none, List.forall_mem_cons, List.forall_mem_cons,
      hMakes.matches_iff, ← ih, RuleSet.find?, List.find?_eq_none]

end RuleSet

/-! ## Faults of patterns -/

namespace Config

variable {entries : List RuleEntry} {index : Nat}

/-- The faults of the patterns of entries, each with the place of its entry, in this order. -/
structure Faults (entries : List RuleEntry) (faults : List (Nat × Pattern.Fault)) : Prop where
  ascending : faults.Pairwise (·.1 < ·.1)
  mem_iff : ∀ i fault, (i, fault) ∈ faults ↔
    ∃ entry, entries[i]? = some entry ∧ Pattern.parse? entry.pattern = .error fault

/-- The faults of the patterns of entries, the first of which has the given index. -/
def faultsFrom (index : Nat) (entries : List RuleEntry) : List (Nat × Pattern.Fault) :=
  (entries.zipIdx index).filterMap fun (entry, i) => entry.fault?.map (i, ·)

theorem faults_faultsFrom (entries : List RuleEntry) : Faults entries (faultsFrom 0 entries) where
  ascending := by
    have hIndices : (entries.zipIdx 0).Pairwise (·.2 < ·.2) := by
      rw [← List.pairwise_map (f := Prod.snd), List.zipIdx_map_snd]
      exact List.pairwise_lt_range'
    refine hIndices.filterMap _ ?_
    rintro ⟨entry, i⟩ ⟨entry', j⟩ hLt fault hFault fault' hFault'
    obtain ⟨_, -, rfl⟩ := Option.map_eq_some_iff.mp hFault
    obtain ⟨_, -, rfl⟩ := Option.map_eq_some_iff.mp hFault'
    exact hLt
  mem_iff i fault := by
    simp only [faultsFrom, List.mem_filterMap, Prod.exists, List.mk_mem_zipIdx_iff_getElem?,
      Option.map_eq_some_iff, Prod.mk.injEq, RuleEntry.fault?_eq_some_iff]
    constructor
    · rintro ⟨entry, j, hEntry, _, hFault, rfl, rfl⟩
      exact ⟨entry, hEntry, hFault⟩
    · rintro ⟨entry, hEntry, hFault⟩
      exact ⟨entry, i, hEntry, fault, hFault, rfl, rfl⟩

theorem patternDiagnostics_eq (index : Nat) (entries : List RuleEntry) :
    patternDiagnostics index entries =
      (faultsFrom index entries).map fun (i, fault) => patternDiagnostic i fault := by
  fun_induction patternDiagnostics index entries with
  | case1 => rfl
  | case2 index entry rest pattern hParse ih =>
    have hFault : entry.fault? = none := by rw [RuleEntry.fault?, hParse]
    simp [faultsFrom, hFault, ih]
  | case3 index entry rest fault hParse ih =>
    have hFault : entry.fault? = some fault := RuleEntry.fault?_eq_some_iff.mpr hParse
    simp [faultsFrom, hFault, ih]

/-- While rules are made, the same diagnostics are collected. -/
theorem buildRules_fst (index : Nat) (entries : List RuleEntry) :
    (buildRules index entries).1 = patternDiagnostics index entries := by
  fun_induction patternDiagnostics index entries with
  | case1 => rfl
  | case2 index entry rest pattern hParse ih => rw [buildRules, hParse, ← ih]
  | case3 index entry rest fault hParse ih => rw [buildRules, hParse, ← ih]

/-- If none are collected, each entry has made a rule. -/
theorem forall₂_buildRules (h : patternDiagnostics index entries = []) :
    List.Forall₂ RuleEntry.Makes entries (buildRules index entries).2 := by
  fun_induction patternDiagnostics index entries with
  | case1 => exact .nil
  | case2 index entry rest pattern hParse ih =>
    rw [buildRules, hParse]
    exact .cons ⟨hParse, rfl⟩ (ih h)
  | case3 => cases h

theorem ruleSet_eq (config : Config) :
    config.ruleSet =
      if patternDiagnostics 0 config.rules = [] then .ok (buildRules 0 config.rules).2
      else .error (.diagnostics (patternDiagnostics 0 config.rules)) := by
  rw [ruleSet, ← buildRules_fst]
  rcases buildRules 0 config.rules with ⟨_ | ⟨d, ds⟩, rules⟩ <;> rfl

theorem validate_eq (config : Config) :
    config.validate =
      if config.diagnostics = [] then .ok () else .error (.diagnostics config.diagnostics) := by
  rw [validate]
  split
  · next h => rw [if_pos h]
  · next h => rw [if_neg h]

/-- The configuration has been read from a text or from a file. -/
def IsLoaded (config : Config) : Prop :=
  (∃ t, Config.parse t = .ok config) ∨ ∃ tree path, (ofFile tree path).1 = .ok config

theorem IsLoaded.validate_eq_ok {config : Config} (h : config.IsLoaded) :
    config.validate = .ok () := by
  rcases h with ⟨t, h⟩ | ⟨tree, path, h⟩
  · unfold Config.parse at h
    cases hRead : read t with
    | error e => simp [hRead, bind, Except.bind] at h
    | ok result =>
      cases hValid : result.1.validate with
      | error e => simp [hRead, hValid, bind, Except.bind] at h
      | ok =>
        simp only [hRead, hValid, bind, Except.bind, pure, Except.pure, Except.ok.injEq] at h
        rw [← h, hValid]
  · unfold ofFile at h
    split at h
    · cases h
    · split at h
      · cases h
      · next result _ _ =>
        cases hValid : ({ result with path } : Config).validate with
        | error e => simp [hValid, Except.map] at h
        | ok =>
          simp only [hValid, Except.map, Except.ok.injEq] at h
          rw [← h, hValid]

/-- What is wrong with a configuration: nothing or an unknown mode, and the faults of its
patterns. -/
structure Reports (config : Config) (mode patterns : List Diagnostic) : Prop where
  mode : mode =
    if (BuildMode.ofName? config.build.mode).isSome then []
    else [⟨"build.mode", s!"unknown mode `{config.build.mode}`",
      some "use `production` or `development`"⟩]
  patterns : ∃ faults, Faults config.rules faults ∧
    patterns = faults.map fun (i, fault) => ⟨s!"rules[{i}].pattern", fault.message, none⟩

theorem reports (config : Config) :
    Reports config (modeDiagnostics config.build.mode) (patternDiagnostics 0 config.rules) where
  mode := by
    unfold modeDiagnostics
    cases BuildMode.ofName? config.build.mode <;> rfl
  patterns := ⟨_, faults_faultsFrom _, patternDiagnostics_eq _ _⟩

theorem Faults.eq_nil_iff {faults : List (Nat × Pattern.Fault)} (h : Faults entries faults) :
    faults = [] ↔ ¬∃ entry ∈ entries, ∃ fault, Pattern.parse? entry.pattern = .error fault := by
  rw [List.eq_nil_iff_forall_not_mem]
  constructor
  · rintro hNone ⟨entry, hEntry, fault, hFault⟩
    obtain ⟨i, hi⟩ := List.mem_iff_getElem?.mp hEntry
    exact hNone (i, fault) ((h.mem_iff i fault).mpr ⟨entry, hi, hFault⟩)
  · rintro hNone ⟨i, fault⟩ hMem
    obtain ⟨entry, hi, hFault⟩ := (h.mem_iff i fault).mp hMem
    exact hNone ⟨entry, List.mem_of_getElem? hi, fault, hFault⟩

theorem patternDiagnostics_eq_nil_iff (entries : List RuleEntry) :
    patternDiagnostics 0 entries = [] ↔
      ¬∃ entry ∈ entries, ∃ fault, Pattern.parse? entry.pattern = .error fault := by
  rw [patternDiagnostics_eq, List.map_eq_nil_iff, (faults_faultsFrom entries).eq_nil_iff]

/-- The rules are those of the configuration, and a path gets the first one whose entry matches. -/
structure Serves (config : Config) (rules : RuleSet) : Prop where
  makes : List.Forall₂ RuleEntry.Makes config.rules rules
  find?_eq_some_iff : ∀ path rule, rules.find? path = some rule ↔
    ∃ (i : Nat) (entry : RuleEntry),
      config.rules[i]? = some entry ∧ entry.Makes rule ∧ entry.Matches path ∧
        ∀ j < i, ∀ earlier, config.rules[j]? = some earlier → ¬earlier.Matches path
  find?_eq_none_iff : ∀ path, rules.find? path = none ↔
    ∀ entry ∈ config.rules, ¬entry.Matches path

theorem serves_buildRules {config : Config} (h : patternDiagnostics 0 config.rules = []) :
    config.Serves (buildRules 0 config.rules).2 where
  makes := forall₂_buildRules h
  find?_eq_some_iff _ _ := RuleSet.find?_eq_some_iff (forall₂_buildRules h)
  find?_eq_none_iff _ := RuleSet.find?_eq_none_iff (forall₂_buildRules h)

/-- A validation fails with all that is wrong with the configuration. The rules cannot be made
exactly if the pattern of an entry is faulty, and then the faults of patterns are all that is said;
otherwise they are the rules of the configuration. So there are always rules once a configuration
has been loaded. -/
theorem validate_agrees_with_ruleSet (config : Config) :
    ∃ mode patterns, config.Reports mode patterns ∧
      config.validate =
        (if mode ++ patterns = [] then .ok () else .error (.diagnostics (mode ++ patterns))) ∧
      ((∃ e, config.ruleSet = .error e) ↔
        ∃ entry ∈ config.rules, ∃ fault, Pattern.parse? entry.pattern = .error fault) ∧
      (∀ e, config.ruleSet = .error e → e = .diagnostics patterns) ∧
      (∀ rules, config.ruleSet = .ok rules → config.Serves rules) ∧
      (config.IsLoaded → ∃ rules, config.ruleSet = .ok rules) := by
  refine ⟨_, _, config.reports, config.validate_eq, ?_⟩
  rw [ruleSet_eq, ← not_iff_not, ← patternDiagnostics_eq_nil_iff]
  by_cases hPatterns : patternDiagnostics 0 config.rules = []
  · simp [hPatterns, serves_buildRules hPatterns]
  · have hInvalid : ¬config.IsLoaded := fun h => by
      have hValid := h.validate_eq_ok
      rw [validate_eq, if_neg (by simp [diagnostics, hPatterns])] at hValid
      cases hValid
    simp [hPatterns, hInvalid]

end Config

end AssetLoom
