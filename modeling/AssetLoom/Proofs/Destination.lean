import AssetLoom.Proofs.Directory
import AssetLoom.Proofs.References
import AssetLoom.Rule

/-!
# Destinations that are directories

A rule may send the paths that it matches to a directory, in which each of them keeps its name. Two
things get in the way of that. A directory whose name has an extension counts as a file even with a
separator behind it, and then all paths are sent to the same place (`mapPath_separator`). And
the name becomes part of a template, so that a dollar sign in it may be read as a reference
(`mapPath_directory`).
-/

namespace AssetLoom

namespace Path.Segments

variable {path stem suffix : Text}

/-- The last segment of the path has a dot between other characters, the last of its dots. -/
def HasExtension (path : Text) : Prop :=
  ∃ stem suffix, basename path = stem ++ '.' :: suffix ∧ stem ≠ [] ∧ suffix ≠ [] ∧ '.' ∉ suffix

theorem extension?_eq (hName : basename path = stem ++ '.' :: suffix) (hDot : '.' ∉ suffix) :
    extension? path = if stem = [] ∨ suffix = [] then none else some suffix := by
  have hReverse : (basename path).reverse = suffix.reverse ++ '.' :: stem.reverse := by
    rw [hName]
    simp
  have hFront : '.' ∉ suffix.reverse := List.mem_reverse.not.mpr hDot
  have hNe : (fun c : Char => c != '.') = fun c => decide (c ≠ '.') :=
    funext fun _ => decide_not.symm
  simp only [extension?, hReverse, hNe, Text.dropWhile_ne_append hFront,
    Text.takeWhile_ne_append hFront]
  rcases List.eq_nil_or_concat' stem with rfl | ⟨stem, c, rfl⟩
  · simp
  · rcases List.eq_nil_or_concat' suffix with rfl | ⟨suffix, d, rfl⟩ <;> simp

theorem extension?_of_notMem (hDot : '.' ∉ basename path) : extension? path = none := by
  have hDrop : (basename path).reverse.dropWhile (· != '.') = [] :=
    List.dropWhile_eq_nil_iff.mpr fun c hc => by
      simpa using ne_of_mem_of_not_mem (List.mem_reverse.mp hc) hDot
  simp [extension?, hDrop]

theorem isSome_extension?_iff : (extension? path).isSome ↔ HasExtension path := by
  constructor
  · intro h
    by_cases hDot : '.' ∈ basename path
    · obtain ⟨back, front, hReverse, hLast⟩ :=
        List.eq_append_cons_of_mem (List.mem_reverse.mpr hDot)
      have hName : basename path = front.reverse ++ '.' :: back.reverse := by
        rw [← List.reverse_reverse (basename path), hReverse]
        simp
      have hSuffix : '.' ∉ back.reverse := List.mem_reverse.not.mpr hLast
      rw [extension?_eq hName hSuffix] at h
      split at h
      · cases h
      · next hParts =>
        obtain ⟨hStem, hBack⟩ := not_or.mp hParts
        exact ⟨_, _, hName, hStem, hBack, hSuffix⟩
    · simp [extension?_of_notMem hDot] at h
  · rintro ⟨stem, suffix, hName, hStem, hSuffix, hDot⟩
    rw [extension?_eq hName hDot, if_neg (not_or.mpr ⟨hStem, hSuffix⟩)]
    rfl

end Path.Segments

namespace Path

/-- The last segment of the path has a dot between other characters. -/
def HasExtension (path : String) : Prop :=
  Segments.HasExtension path.toList

theorem isSome_extension?_iff {path : String} :
    (extension? path).isSome ↔ HasExtension path := by
  rw [extension?, Option.isSome_map]
  exact Segments.isSome_extension?_iff

/-- Every name without slashes is that of a path with a slash. -/
theorem exists_basename_eq {name : String} (hSlash : '/' ∉ name.toList) (hNil : name.toList ≠ []) :
    ∃ path : String, '/' ∈ path.toList ∧ basename path = name := by
  refine ⟨.ofList ('d' :: '/' :: name.toList), by simp, ?_⟩
  have hName := Segments.basename_append hSlash hNil ['d']
  rw [List.singleton_append] at hName
  rw [basename, String.toList_ofList, hName, String.ofList_toList]

end Path

namespace Rule

open Pattern (Match Plain anyText)

variable {rule : Rule} {target source other : String} {found found' : Match}

/-- A directory with a separator behind it. -/
def withSeparator (target : String) : String :=
  if Path.isDirectory target then target else target ++ "/"

theorem template_of_hasExtension (h : Path.HasExtension target) (source : String) :
    template target source = target := by
  rw [template, if_pos (Path.isSome_extension?_iff.mpr h)]

theorem template_of_not_hasExtension (h : ¬Path.HasExtension target) (source : String) :
    template target source = withSeparator target ++ Path.basename source := by
  rw [template, if_neg (Path.isSome_extension?_iff.not.mpr h), withSeparator]
  split <;> rfl

/-- The separator that is put behind a directory does not refer to anything. -/
theorem notMem_withSeparator (h : '$' ∉ target.toList) : '$' ∉ (withSeparator target).toList := by
  unfold withSeparator
  split
  · exact h
  · simp [h]

/-- The destination of the rule is `target`, and its first match in `source` is all of it. -/
structure Replaces (rule : Rule) (target source : String) (found : Match) : Prop where
  target : rule.target = some (.string target)
  spans : rule.pattern.Spans source.toList found

namespace Replaces

theorem mapPath_eq (h : rule.Replaces target source found) (hSome : target ≠ "") :
    rule.mapPath source =
      .ok (.ofList (rule.pattern.expand found (template target source).toList)) := by
  have hDestination : rule.destination = .ok (some target) := by rw [destination, h.target]
  rw [mapPath, hDestination, ← h.spans.replaceFirst_eq]
  show (if target = "" then _ else _) = _
  rw [if_neg hSome]
  rfl

theorem mapPath_of_plain (h : rule.Replaces target source found) (hSome : target ≠ "")
    (hPlain : Plain (template target source).toList) :
    rule.mapPath source = .ok (template target source) := by
  rw [h.mapPath_eq hSome, Pattern.expand_of_plain hPlain, String.ofList_toList]

/-- A path that is sent to a directory keeps its name up to references. -/
theorem mapPath_of_directory (h : rule.Replaces target source found) (hSome : target ≠ "")
    (hTarget : '$' ∉ target.toList) (hDirectory : ¬Path.HasExtension target) :
    rule.mapPath source = .ok (withSeparator target ++
      .ofList (rule.pattern.expand found (Path.basename source).toList)) := by
  rw [h.mapPath_eq hSome, template_of_not_hasExtension hDirectory, String.toList_append,
    Pattern.expand_append (notMem_withSeparator hTarget), String.ofList_append, String.ofList_toList]

end Replaces

theorem plain_template (hTarget : '$' ∉ target.toList) (hSource : '$' ∉ source.toList) :
    Plain (template target source).toList := by
  apply Pattern.plain_of_notMem
  by_cases hExtension : Path.HasExtension target
  · rwa [template_of_hasExtension hExtension]
  · have hName : '$' ∉ (Path.basename source).toList := fun h =>
      hSource ((Path.Segments.basename_sublist _).mem (by simpa [Path.basename] using h))
    rw [template_of_not_hasExtension hExtension, String.toList_append, List.mem_append, not_or]
    exact ⟨notMem_withSeparator hTarget, hName⟩

/-- The rule that sends all paths to one destination. -/
def ofAll (target : String) : Rule :=
  ⟨anyText, some (.string target)⟩

theorem replaces_ofAll (target source : String) :
    (ofAll target).Replaces target source ⟨[], [], [some source.toList]⟩ :=
  ⟨rfl, Pattern.spans_anyText _⟩

/-- A file whose name is not plain gets another name in a directory. -/
theorem mapPath_ofAll_ne (hSome : target ≠ "") (hTarget : '$' ∉ target.toList)
    (hDirectory : ¬Path.HasExtension target) (hSlash : '/' ∈ source.toList)
    (hPlain : ¬Plain (Path.basename source).toList) :
    (ofAll target).mapPath source ≠ .ok (withSeparator target ++ Path.basename source) := by
  rw [(replaces_ofAll target source).mapPath_of_directory hSome hTarget hDirectory]
  intro hKept
  have hSame := (String.append_right_inj _).mp (Except.ok.inj hKept)
  have hName : '/' ∉ (Path.basename source).toList := by
    rw [Path.basename, String.toList_ofList]
    exact Path.Segments.slash_notMem_basename _
  refine Pattern.expand_anyText_ne hSlash hName hPlain ?_
  rw [← String.toList_ofList (l := Pattern.expand _ _ _)]
  exact congrArg String.toList hSame

/-- Whether a destination with a separator at its end is a directory depends on its name. With an
extension it is a file, and all paths are sent there; without one each path keeps its name, and two
paths are sent to the same place only if they have the same name. -/
theorem mapPath_separator (h : rule.Replaces target source found)
    (hOther : rule.Replaces target other found') (hSeparator : Path.isDirectory target = true)
    (hTarget : '$' ∉ target.toList) (hSource : '$' ∉ source.toList)
    (hDollar : '$' ∉ other.toList) :
    (rule.mapPath source = .ok (target ++ Path.basename source) ↔
        ¬Path.HasExtension target ∨ Path.basename source = "") ∧
      (Path.HasExtension target → rule.mapPath source = .ok target) ∧
      (rule.mapPath source = rule.mapPath other ↔
        Path.HasExtension target ∨ Path.basename source = Path.basename other) := by
  have hSome : target ≠ "" := by
    rintro rfl
    cases hSeparator
  have hMap := h.mapPath_of_plain hSome (plain_template hTarget hSource)
  have hMap' := hOther.mapPath_of_plain hSome (plain_template hTarget hDollar)
  by_cases hExtension : Path.HasExtension target
  · rw [template_of_hasExtension hExtension] at hMap hMap'
    have hSame : target = target ++ Path.basename source ↔ Path.basename source = "" := by
      rw [eq_comm, String.append_eq_left_iff]
    simp [hMap, hMap', hExtension, hSame]
  · rw [template_of_not_hasExtension hExtension, withSeparator, if_pos hSeparator] at hMap hMap'
    simp [hMap, hMap', hExtension]

/-- The files of a directory without an extension stay apart. -/
theorem mapPath_separator_assets :
    (ofAll "dist/assets/").mapPath "static/app.js" =
        .ok ("dist/assets/" ++ Path.basename "static/app.js") ∧
      (ofAll "dist/assets/").mapPath "static/app.js" ≠
        (ofAll "dist/assets/").mapPath "static/lib.js" := by
  have hDirectory : ¬Path.HasExtension "dist/assets/" :=
    Path.isSome_extension?_iff.not.mp (by decide +kernel)
  obtain ⟨hKept, -, hApart⟩ := mapPath_separator (replaces_ofAll "dist/assets/" "static/app.js")
    (replaces_ofAll "dist/assets/" "static/lib.js") (by decide) (by decide) (by decide) (by decide)
  refine ⟨hKept.mpr (.inl hDirectory), hApart.not.mpr (not_or.mpr ⟨hDirectory, ?_⟩)⟩
  decide +kernel

/-- The version in the name of a directory is an extension. Two files become one. -/
theorem version_counts_as_extension :
    Path.isDirectory "dist/v1.2/" = true ∧
      (ofAll "dist/v1.2/").mapPath "static/app.js" = .ok "dist/v1.2/" ∧
      (ofAll "dist/v1.2/").mapPath "static/lib.js" = .ok "dist/v1.2/" := by
  refine ⟨by decide, ?_, ?_⟩
  · exact ((replaces_ofAll _ _).mapPath_of_plain (by decide)
      (plain_template (by decide) (by decide))).trans (by decide +kernel)
  · exact ((replaces_ofAll _ _).mapPath_of_plain (by decide)
      (plain_template (by decide) (by decide))).trans (by decide +kernel)

/-- A path that is sent to a directory keeps its name up to references. So the names that every
rule keeps, whatever its pattern, are those in which each dollar sign stands for itself. -/
theorem mapPath_directory (hSome : target ≠ "") (hTarget : '$' ∉ target.toList)
    (hDirectory : ¬Path.HasExtension target) :
    (∀ rule source found, Replaces rule target source found →
        rule.mapPath source = .ok (withSeparator target ++
          .ofList (rule.pattern.expand found (Path.basename source).toList))) ∧
      ∀ name : String, '/' ∉ name.toList →
        (Plain name.toList ↔ ∀ rule source found,
          Pattern.parse? rule.pattern.source = .ok rule.pattern →
          Replaces rule target source found → Path.basename source = name →
          rule.mapPath source = .ok (withSeparator target ++ name)) := by
  refine ⟨fun rule source found h => h.mapPath_of_directory hSome hTarget hDirectory,
    fun name hSlash => ⟨fun hPlain rule source found _ h hName => ?_, fun hAll => ?_⟩⟩
  · rw [h.mapPath_of_directory hSome hTarget hDirectory, hName, Pattern.expand_of_plain hPlain,
      String.ofList_toList]
  · by_contra hPlain
    have hNil : name.toList ≠ [] := fun h => hPlain (h ▸ Pattern.plain_nil)
    obtain ⟨source, hIn, rfl⟩ := Path.exists_basename_eq hSlash hNil
    exact mapPath_ofAll_ne hSome hTarget hDirectory hIn hPlain
      (hAll _ source _ Pattern.parse?_anySource (replaces_ofAll target source) rfl)

/-- A dollar sign in front of a dot stands for itself. -/
theorem mapPath_directory_before_dot :
    (ofAll "dist/assets").mapPath "static/a$.js" =
      .ok (withSeparator "dist/assets" ++ "a$.js") := by
  have hDirectory : ¬Path.HasExtension "dist/assets" :=
    Path.isSome_extension?_iff.not.mp (by decide +kernel)
  obtain ⟨-, hNames⟩ := mapPath_directory (by decide) (by decide) hDirectory
  exact (hNames "a$.js" (by decide)).mp (by decide) _ _ _ Pattern.parse?_anySource
    (replaces_ofAll _ _) (by decide +kernel)

/-- A dollar sign in front of a letter takes the name behind it away. Two files become one. -/
theorem dollar_counts_as_reference :
    (ofAll "dist/assets/").mapPath "static/a$b.js" = .ok "dist/assets/a.js" ∧
      (ofAll "dist/assets/").mapPath "static/a.js" = .ok "dist/assets/a.js" := by
  constructor
  · rw [(replaces_ofAll _ _).mapPath_eq (by decide)]
    decide +kernel
  · exact ((replaces_ofAll _ _).mapPath_of_plain (by decide)
      (plain_template (by decide) (by decide))).trans (by decide +kernel)

end Rule

end AssetLoom
