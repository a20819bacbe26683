import AssetLoom.Proofs.Readers
import AssetLoom.Proofs.Scanning

/-!
# Directives as matches of a pattern

The matches of a pattern follow one another (`Pattern.matchesFrom`), and what a match has noted
says which directive it stands for (`ofMatch?`). If at the front of any text the pattern matches
what a reader reads there (`Describes`), the directives of its matches are those that a scan with
this reader finds (`Describes.scanFrom_eq`).
-/

namespace AssetLoom.Directive

open Pattern
open Text (byteLength)

/-- The bytes of what a group has matched. -/
def groupSpan? (t : Text) (slots : Slots) (index : Nat) : Option Span :=
  match slots[2 * index]?.join, slots[2 * index + 1]?.join with
  | some start, some stop => some ⟨byteLength (t.take start), byteLength (t.take stop)⟩
  | _, _ => none

/-- The directive that a match stands for, if a group with a name has matched its address. -/
def ofMatch? (p : Pattern) (t : Text) (slots : Slots) (name : String) (kind : DirectiveKind)
    (quote : Char) : Option Directive := do
  let index ← p.names.lookup name.toList
  let span ← groupSpan? t slots 0
  let addressSpan ← groupSpan? t slots index
  let address ← groupText t slots index
  return { kind, address, addressSpan, span, quote }

/-! ## What a match has noted -/

/-- A group has matched the characters from `start` to `stop`. -/
structure Noted (slots : Slots) (index start stop : Nat) : Prop where
  start : slots[2 * index]?.join = some start
  stop : slots[2 * index + 1]?.join = some stop

/-- A match has noted a directive at a position, with the address as a group. -/
structure Marks (slots : Slots) (group start : Nat) (cut : Cut) : Prop where
  whole : Noted slots 0 start (start + cut.text.length)
  address : Noted slots group (start + cut.lead.length)
    (start + cut.lead.length + cut.address.length)

variable {p : Pattern} {slots : Slots} {index start : Nat} {front part rest t : Text} {cut : Cut}
  {name : String} {kind : DirectiveKind} {quote : Char} {group : Char → Nat}

namespace Noted

theorem groupSpan?_eq (h : Noted slots index front.length (front ++ part).length) :
    groupSpan? (front ++ (part ++ rest)) slots index =
      some ⟨byteLength front, byteLength (front ++ part)⟩ := by
  rw [groupSpan?, h.start, h.stop]
  dsimp only
  rw [List.take_left, ← List.append_assoc, List.take_left]

theorem groupText_eq (h : Noted slots index front.length (front ++ part).length) :
    groupText (front ++ (part ++ rest)) slots index = some part := by
  rw [groupText, h.start, h.stop, ← List.append_assoc]
  dsimp only
  rw [List.take_left, List.drop_left]

end Noted

theorem Marks.ofMatch?_eq (kind : DirectiveKind) (rest : Text)
    (h : Marks slots index front.length cut)
    (hName : p.names.lookup name.toList = some index) :
    ofMatch? p (front ++ (cut.text ++ rest)) slots name kind cut.quote =
      some (ofCut (byteLength front) kind cut) := by
  have hText : front ++ (cut.text ++ rest) =
      (front ++ cut.lead) ++ (cut.address ++ (cut.tail ++ rest)) := by
    simp [Cut.text]
  have hWhole : Noted slots 0 front.length (front ++ cut.text).length := by
    simpa using h.whole
  have hAddress : Noted slots index (front ++ cut.lead).length
      (front ++ cut.lead ++ cut.address).length := by
    simpa [Nat.add_assoc] using h.address
  rw [ofMatch?, hName, hWhole.groupSpan?_eq, hText]
  simp only [Option.bind_eq_bind, Option.bind_some, hAddress.groupSpan?_eq, hAddress.groupText_eq]
  simp [ofCut, Nat.add_assoc]

theorem ofMatch?_eq_none (hName : p.names.lookup name.toList = some index)
    (h : slots[2 * index]?.join = none) : ofMatch? p t slots name kind quote = none := by
  simp [ofMatch?, hName, groupText, h]

/-- The group of the quote is that of the address. -/
theorem marks_addressed (hStart : slots[0]? = some (some start)) (hPos : 0 < group cut.quote)
    (hSize : 2 * group cut.quote + 1 < slots.size) :
    Marks ((addressed group).note cut start slots) (group cut.quote) start cut := by
  refine ⟨⟨?_, ?_⟩, ⟨?_, ?_⟩⟩
  all_goals simp only [addressed]
  · rw [Array.getElem?_setIfInBounds_ne (by omega), Array.getElem?_setIfInBounds_ne (by omega),
      Array.getElem?_setIfInBounds_ne (by omega), hStart]
    rfl
  · rw [Array.getElem?_setIfInBounds_self_of_lt (by simp; omega)]
    rfl
  · rw [Array.getElem?_setIfInBounds_ne (by omega), Array.getElem?_setIfInBounds_ne (by omega),
      Array.getElem?_setIfInBounds_self_of_lt (by omega)]
    rfl
  · rw [Array.getElem?_setIfInBounds_ne (by omega),
      Array.getElem?_setIfInBounds_self_of_lt (by simp; omega)]
    rfl

/-- All other slots are as before, apart from the end of the match. -/
theorem addressed_of_ne {i : Nat} (hEnd : i ≠ 1) (hStart : i ≠ 2 * group cut.quote)
    (hStop : i ≠ 2 * group cut.quote + 1) :
    ((addressed group).note cut start slots)[i]? = slots[i]? := by
  simp only [addressed]
  rw [Array.getElem?_setIfInBounds_ne hEnd.symm, Array.getElem?_setIfInBounds_ne hStop.symm,
    Array.getElem?_setIfInBounds_ne hStart.symm]

/-! ## All matches -/

/-- At the front of a text a pattern matches what a reader reads, and the match stands for the
directive that is read. -/
structure Describes (parsed : Parsed) (directive? : Text → Slots → Option Directive)
    (read : Reader) : Prop where
  isProper : parsed.expr.isProper = true
  fails : ∀ {before index t}, read t = none →
    parsed.expr.matchAt parsed.groups ⟨before, index, t⟩ = none
  finds : ∀ {t kind cut} before front, read t = some (kind, cut) → ∃ slots,
    parsed.expr.matchAt parsed.groups ⟨before, front.length, t⟩ = some slots ∧
      slots[1]?.join = some (front.length + cut.text.length) ∧
      directive? (front ++ t) slots = some (ofCut (byteLength front) kind cut)

namespace Describes

variable {parsed : Parsed} {directive? : Text → Slots → Option Directive} {read : Reader}

/-- It is enough that the pattern matches what is read together with what has to be noted. -/
theorem of_matches {α : Type} {noting : Noting α} {reading : Text → Option α}
    {found : α → DirectiveKind × Cut} (isProper : parsed.expr.isProper = true)
    (hMatches : noting.Matches (parsed.expr.matchThen accepted) reading)
    (hRead : ∀ t, read t = (reading t).map found)
    (hFound : ∀ front t a, reading t = some a →
      let slots := noting.note a front.length (started parsed.groups front.length)
      slots[1]?.join = some (front.length + (found a).2.text.length) ∧
      directive? (front ++ t) slots = some (ofCut (byteLength front) (found a).1 (found a).2)) :
    Describes parsed directive? read where
  isProper := isProper
  fails {before index t} h := by
    rw [hRead, Option.map_eq_none_iff] at h
    rw [Expr.matchAt_eq, hMatches, h, Option.map_none]
  finds {t kind cut} before front h := by
    rw [hRead, Option.map_eq_some_iff] at h
    obtain ⟨a, hReading, hCut⟩ := h
    obtain ⟨hStop, hDirective⟩ := hFound front t a hReading
    rw [hCut] at hStop hDirective
    refine ⟨_, ?_, hStop, hDirective⟩
    rw [Expr.matchAt_eq, hMatches, hReading, Option.map_some]

/-- No match starts where nothing is read. -/
theorem firstFrom_append (h : Describes parsed directive? read) {gap rest : Text}
    (hGap : PassesOver read gap rest) (before : Option Char) (index : Nat) : ∃ before',
      firstFrom (parsed.expr.matchAt parsed.groups) before index (gap ++ rest) =
        firstFrom (parsed.expr.matchAt parsed.groups) before' (index + gap.length) rest := by
  induction gap generalizing before index with
  | nil => exact ⟨before, rfl⟩
  | cons c gap ih =>
    have hHere : read (c :: (gap ++ rest)) = none := hGap [] (c :: gap) rfl (by simp)
    obtain ⟨before', hLater⟩ := ih hGap.tail (some c) (index + 1)
    refine ⟨before', ?_⟩
    rw [List.cons_append, firstFrom, h.fails hHere, Option.none_or, hLater, List.length_cons,
      Nat.add_assoc, Nat.add_comm 1]

/-- Where nothing is read at all, nothing is matched. -/
theorem firstFrom_eq_none (h : Describes parsed directive? read) (hSound : Sound read)
    (hNone : PassesOver read t []) (before : Option Char) (index : Nat) :
    firstFrom (parsed.expr.matchAt parsed.groups) before index t = none := by
  have hEnd : read [] = none := by
    rw [Option.eq_none_iff_forall_ne_some]
    rintro ⟨kind, cut⟩ hRead
    obtain ⟨hText, hAttributed, -⟩ := hSound _ _ _ hRead
    exact hAttributed.text_ne_nil (List.prefix_nil.mp hText)
  obtain ⟨before', hFirst⟩ := h.firstFrom_append hNone before index
  rw [List.append_nil] at hFirst
  rw [hFirst, firstFrom, h.fails hEnd]

/-- The first match is what is read first. -/
theorem firstFrom_eq_some (h : Describes parsed directive? read) {gap : Text}
    (hGap : PassesOver read gap rest) (hRead : read rest = some (kind, cut)) (hNonempty : rest ≠ [])
    (before : Option Char) (front : Text) : ∃ slots,
      firstFrom (parsed.expr.matchAt parsed.groups) before front.length (gap ++ rest) = some slots ∧
      slots[1]?.join = some ((front ++ gap).length + cut.text.length) ∧
      directive? (front ++ gap ++ rest) slots =
        some (ofCut (byteLength (front ++ gap)) kind cut) := by
  obtain ⟨before', hFirst⟩ := h.firstFrom_append hGap before front.length
  obtain ⟨slots, hMatch, hStop, hDirective⟩ := h.finds before' (front ++ gap) hRead
  refine ⟨slots, ?_, hStop, hDirective⟩
  obtain ⟨c, rest, rfl⟩ := List.exists_cons_of_ne_nil hNonempty
  rw [hFirst, firstFrom, ← List.length_append, hMatch, Option.some_or]

/-- A search starts behind a front. -/
theorem searchFrom_eq (h : Describes parsed directive? read) (source : String) (front t : Text) :
    searchFrom (parsed.pattern source).machine (freshSlots (parsed.pattern source).groups)
        ((front ++ t).take front.length).getLast? front.length [] none
        ((front ++ t).drop front.length) =
      firstFrom (parsed.expr.matchAt parsed.groups) front.getLast? front.length t := by
  rw [List.take_left, List.drop_left]
  exact Parsed.searchFrom_pattern h.isProper ..

/-- A scan finds the directives that the matches stand for. -/
theorem scanFrom_eq (h : Describes parsed directive? read) (hSound : Sound read) (source : String)
    (front t : Text) : scanFrom read (byteLength front) 0 t =
      ((parsed.pattern source).matchesFrom (front ++ t) front.length).filterMap
        (directive? (front ++ t)) := by
  induction hLength : t.length using Nat.strong_induction_on generalizing front t with
  | _ n ih =>
  have hSearch := h.searchFrom_eq source front t
  rcases passesOver_or_read read t with hNone | ⟨gap, rest, kind, cut, rfl, hGap, hRead⟩
  · have hScan := hNone.scanFrom_eq (byteLength front)
    rw [List.append_nil] at hScan
    rw [h.firstFrom_eq_none hSound hNone] at hSearch
    rw [matchesFrom_eq_nil hSearch, hScan]
    rfl
  · obtain ⟨⟨behind, rfl⟩, hAttributed, -⟩ := hSound _ _ _ hRead
    have hNonempty := hAttributed.text_ne_nil
    have hPos := List.length_pos_iff.mpr hNonempty
    obtain ⟨slots, hFirst, hStop, hDirective⟩ :=
      h.firstFrom_eq_some hGap hRead (by simp [hNonempty]) front.getLast? front
    rw [hFirst] at hSearch
    have hLess : behind.length < n := by
      simp only [List.length_append] at hLength
      omega
    have hLater := ih behind.length hLess (front ++ gap ++ cut.text) behind rfl
    rw [hGap.scanFrom_eq, scanFrom_of_read hRead hNonempty,
      matchesFrom_eq_cons hSearch hStop (by simp; omega) (by simp; omega)]
    simp only [List.append_assoc, Text.byteLength_append, List.length_append, ← Nat.add_assoc]
      at hDirective hLater ⊢
    rw [List.filterMap_cons_some hDirective, ← hLater]

end Describes

end AssetLoom.Directive
