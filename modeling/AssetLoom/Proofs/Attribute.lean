import AssetLoom.Directive.Attribute
import AssetLoom.Proofs.Mark
import Mathlib.Data.List.Forall2

/-!
# How attributes are read

What is read at the front of a text, and what the text is then, determine each other:
`cutAttribute?_eq_some_iff` for one attribute, `findAttribute?_eq_some_iff` for the search through
a directive. The search goes over whatever is no attribute that the directive can be finished
behind, as long as it does not meet the character that ends the directive. So an attribute is found
as it is written, behind a text in which none of its name begins (`findAttribute?_of_written`).
-/

namespace AssetLoom

namespace Text

variable {c : Char}

/-- Tables whose intervals lie apart have no character in common. -/
theorem inIntervals_eq_false {table other : List (Nat × Nat)}
    (hApart : ∀ p ∈ table, ∀ q ∈ other, p.2 < q.1 ∨ q.2 < p.1) (h : inIntervals table c = true) :
    inIntervals other c = false := by
  obtain ⟨p, hp, hLow, hHigh⟩ := inIntervals_eq_true_iff.mp h
  rw [Bool.eq_false_iff]
  intro hOther
  obtain ⟨q, hq, hLow', hHigh'⟩ := inIntervals_eq_true_iff.mp hOther
  have := hApart p hp q hq
  omega

/-- A blank ends a word. -/
theorem isWord_of_isBlank (h : isBlank c = true) : isWord c = false := by
  unfold isWord
  split
  · next hAscii =>
    have hBlank : ∀ n < 128, isBlank (Char.ofNat n) = true → isAsciiWord (Char.ofNat n) = false := by
      decide
    have := hBlank c.toNat hAscii
    rw [Char.ofNat_toNat] at this
    exact this h
  · exact inIntervals_eq_false (by decide +kernel) h

theorem dropWhile_isBlank_append {blanks : Text} (hBlanks : ∀ c ∈ blanks, isBlank c = true)
    {c : Char} (hc : isBlank c = false) (t : Text) :
    (blanks ++ c :: t).dropWhile isBlank = c :: t := by
  rw [List.dropWhile_append_of_pos hBlanks, List.dropWhile_cons_of_neg (by simp [hc])]

theorem takeWhile_isBlank_append {blanks : Text} (hBlanks : ∀ c ∈ blanks, isBlank c = true)
    {c : Char} (hc : isBlank c = false) (t : Text) :
    (blanks ++ c :: t).takeWhile isBlank = blanks := by
  rw [List.takeWhile_append_of_pos hBlanks, List.takeWhile_cons_of_neg (by simp [hc]),
    List.append_nil]

/-- A blank has no case. -/
theorem fold_of_isBlank {c : Char} (h : isBlank c = true) : fold c = c := by
  have hApart : ∀ p ∈ blankIntervals, ∀ run ∈ foldRuns, p.2 < run.first ∨ run.last < p.1 := by
    decide +kernel
  obtain ⟨p, hp, hLow, hHigh⟩ := inIntervals_eq_true_iff.mp h
  have hNone : foldRuns.find? (·.contains c.toNat) = none := by
    refine List.find?_eq_none.mpr fun run hRun hContains => ?_
    simp only [FoldRun.contains, Bool.and_eq_true, decide_eq_true_eq] at hContains
    have := hApart p hp run hRun
    omega
  rw [fold, foldPoint, hNone, Char.ofNat_toNat]

end Text

namespace Directive

/-! ## Names -/

/-- A text without the name at its front. -/
theorem stripName?_eq_some {same : Char → Char → Bool} {name t rest : Text}
    (h : stripName? same name t = some rest) :
    ∃ written, t = written ++ rest ∧ List.Forall₂ (fun n c => same n c = true) name written := by
  induction name generalizing t with
  | nil =>
    rw [stripName?, Option.some.injEq] at h
    exact ⟨[], h ▸ rfl, .nil⟩
  | cons n name ih =>
    cases t with
    | nil => simp [stripName?] at h
    | cons c t =>
      rw [stripName?] at h
      split at h
      · next hSame =>
        obtain ⟨written, rfl, hWritten⟩ := ih h
        exact ⟨c :: written, rfl, .cons hSame hWritten⟩
      · cases h

theorem stripName?_append {same : Char → Char → Bool} {name written : Text}
    (h : List.Forall₂ (fun n c => same n c = true) name written) (rest : Text) :
    stripName? same name (written ++ rest) = some rest := by
  induction h with
  | nil => rfl
  | cons hSame _ ih => rw [List.cons_append, stripName?, if_pos hSame, ih]

theorem take_of_forall₂ {R : Char → Char → Prop} {name written : Text} (rest : Text)
    (h : List.Forall₂ R name written) : (written ++ rest).take name.length = written := by
  rw [h.length_eq, List.take_left]

theorem eq_of_forall₂_exactly {name written : Text}
    (h : List.Forall₂ (fun n c => exactly n c = true) name written) : written = name := by
  induction h with
  | nil => rfl
  | cons hChar _ ih =>
    simp only [exactly, beq_iff_eq] at hChar
    rw [hChar, ih]

theorem forall₂_exactly (name : Text) :
    List.Forall₂ (fun n c => exactly n c = true) name name :=
  List.forall₂_same.mpr fun _ _ => by simp [exactly]

theorem stripName?_exactly_eq_some_iff {name t left : Text} :
    stripName? exactly name t = some left ↔ t = name ++ left := by
  constructor
  · intro h
    obtain ⟨written, rfl, hWritten⟩ := stripName?_eq_some h
    rw [eq_of_forall₂_exactly hWritten]
  · rintro rfl
    exact stripName?_append (forall₂_exactly name) left

theorem exists_of_mem_forall₂ {R : Char → Char → Prop} {name written : Text}
    (h : List.Forall₂ R name written) {c : Char} (hc : c ∈ written) : ∃ n ∈ name, R n c := by
  induction h with
  | nil => simp at hc
  | @cons n d name written hSame _ ih =>
    rcases List.mem_cons.mp hc with rfl | hc
    · exact ⟨n, List.mem_cons_self, hSame⟩
    · obtain ⟨m, hm, hR⟩ := ih hc
      exact ⟨m, List.mem_cons_of_mem n hm, hR⟩

/-- A keyword ends where no word character follows, and before a blank. -/
theorem endsWord_append {between : Text} {blank : Char}
    (hBetween : ∀ c ∈ between.head?, Text.isWord c = false) (hBlank : Text.isBlank blank = true)
    (rest : Text) : endsWord (between ++ blank :: rest) = true := by
  cases between with
  | nil => simp [endsWord, Text.isWord_of_isBlank hBlank]
  | cons c between => simp [endsWord, hBetween c rfl]

/-! ## One attribute -/

theorem cutQuoted?_eq_some_iff {quotes : List Char} {finish : Text → Option Text} {t : Text}
    {cut : Cut} : cutQuoted? quotes finish t = some cut ↔
      ∃ quote address left behind, quote ∈ quotes ∧ quote ∉ address ∧
        t = quote :: (address ++ quote :: left) ∧ finish left = some behind ∧
        cut = { lead := [quote], quote, address, tail := quote :: behind } := by
  constructor
  · intro h
    cases t with
    | nil => simp [cutQuoted?] at h
    | cons quote rest =>
      rw [cutQuoted?] at h
      split at h
      · next hQuote =>
        split at h
        · cases h
        · next close left hDrop =>
          obtain ⟨behind, hBehind, rfl⟩ := Option.map_eq_some_iff.mp h
          obtain ⟨address, hAddress, rfl⟩ := Text.eq_of_dropWhile_ne hDrop
          rw [Text.takeWhile_ne_append hAddress]
          exact ⟨quote, address, left, behind, by simpa using hQuote, hAddress, rfl, hBehind, rfl⟩
      · cases h
  · rintro ⟨quote, address, left, behind, hQuote, hAddress, rfl, hBehind, rfl⟩
    rw [cutQuoted?, if_pos (by simpa using hQuote), Text.dropWhile_ne_append hAddress]
    simp only [hBehind, Option.map_some, Text.takeWhile_ne_append hAddress]

/-- An attribute that is read is the front of the text: a blank, the name, an equals sign and the
address in quotes, with what the directive is finished by behind it. -/
theorem cutAttribute?_eq_some_iff {form : AttributeForm} {finish : Text → Option Text} {t : Text}
    {cut : Cut} : cutAttribute? form finish t = some cut ↔
      ∃ blank written quote address left behind, Text.isBlank blank = true ∧
        List.Forall₂ (fun n c => form.same n c = true) form.name written ∧
        quote ∈ form.quotes ∧ quote ∉ address ∧
        t = blank :: (written ++ '=' :: quote :: (address ++ quote :: left)) ∧
        finish left = some behind ∧
        cut = { lead := blank :: (written ++ ['=', quote]), quote, address,
                tail := quote :: behind } := by
  constructor
  · intro h
    cases t with
    | nil => simp [cutAttribute?] at h
    | cons blank rest =>
      rw [cutAttribute?] at h
      split at h
      · next hBlank =>
        split at h
        · next value hStrip =>
          obtain ⟨inner, hInner, rfl⟩ := Option.map_eq_some_iff.mp h
          obtain ⟨quote, address, left, behind, hQuote, hAddress, rfl, hBehind, rfl⟩ :=
            cutQuoted?_eq_some_iff.mp hInner
          obtain ⟨written, rfl, hWritten⟩ := stripName?_eq_some hStrip
          refine ⟨blank, written, quote, address, left, behind, hBlank, hWritten, hQuote, hAddress,
            rfl, hBehind, ?_⟩
          rw [take_of_forall₂ _ hWritten]
          simp [Cut.prepend]
        · cases h
      · cases h
  · rintro ⟨blank, written, quote, address, left, behind, hBlank, hWritten, hQuote, hAddress, rfl,
      hBehind, rfl⟩
    have hInner := cutQuoted?_eq_some_iff.mpr
      ⟨quote, address, left, behind, hQuote, hAddress, rfl, hBehind, rfl⟩
    rw [cutAttribute?, if_pos hBlank, stripName?_append hWritten]
    simp only [hInner, Option.map_some, take_of_forall₂ _ hWritten]
    simp [Cut.prepend]

/-- An attribute of the form begins at the front of the text: a blank, its name and an equals
sign. -/
def AttributeForm.Begins (form : AttributeForm) (t : Text) : Prop :=
  ∃ blank written value, Text.isBlank blank = true ∧
    List.Forall₂ (fun n c => form.same n c = true) form.name written ∧
    t = blank :: (written ++ '=' :: value)

theorem AttributeForm.Begins.of_cutAttribute? {form : AttributeForm}
    {finish : Text → Option Text} {t : Text} {cut : Cut}
    (h : cutAttribute? form finish t = some cut) : form.Begins t := by
  obtain ⟨blank, written, quote, address, left, behind, hBlank, hWritten, -, -, rfl, -⟩ :=
    cutAttribute?_eq_some_iff.mp h
  exact ⟨blank, written, _, hBlank, hWritten, rfl⟩

theorem AttributeForm.not_begins_of_notMem {form : AttributeForm} {t : Text} (h : '=' ∉ t) :
    ∀ x y, t = x ++ y → ¬ form.Begins y := by
  rintro x y rfl ⟨blank, written, value, -, -, rfl⟩
  simp at h

/-- The beginning of an attribute ends before a character that belongs to none. -/
theorem AttributeForm.Begins.of_append {form : AttributeForm} {c : Char} {t rest : Text}
    (hEquals : c ≠ '=') (hName : ∀ n ∈ form.name, form.same n c = false) (hNonempty : t ≠ [])
    (h : form.Begins (t ++ c :: rest)) : form.Begins t := by
  obtain ⟨blank, written, value, hBlank, hWritten, hText⟩ := h
  obtain ⟨first, t, rfl⟩ := List.exists_cons_of_ne_nil hNonempty
  obtain ⟨rfl, hTail⟩ := List.cons.inj hText
  rcases List.append_eq_append_iff.mp hTail with ⟨more, hName', hRest⟩ | ⟨more, hFront, hRest⟩
  · -- The name, or the equals sign, would have to hold the character.
    cases more with
    | nil => exact absurd (List.cons.inj hRest).1 hEquals
    | cons d more =>
      obtain rfl := (List.cons.inj hRest).1
      have hMem : c ∈ written := by simp [hName']
      obtain ⟨n, hn, hSame⟩ := exists_of_mem_forall₂ hWritten hMem
      simp [hName n hn] at hSame
  · cases more with
    | nil => exact absurd (List.cons.inj hRest).1.symm hEquals
    | cons d more =>
      obtain rfl := (List.cons.inj hRest).1
      exact ⟨first, written, more, hBlank, hWritten, by rw [hFront]⟩

/-! ## The search -/

/-- The search finds the first attribute that the directive can be finished behind, unless the
character that it does not go beyond comes first. -/
theorem findAttribute?_eq_some_iff {form : AttributeForm} {finish : Text → Option Text}
    {t : Text} {cut : Cut} : findAttribute? form finish t = some cut ↔
      ∃ front rest inner, t = front ++ rest ∧ form.stop ∉ front ∧
        (∀ x y, front = x ++ y → y ≠ [] → cutAttribute? form finish (y ++ rest) = none) ∧
        cutAttribute? form finish rest = some inner ∧ cut = inner.prepend front := by
  constructor
  · intro h
    induction t generalizing cut with
    | nil => simp [findAttribute?] at h
    | cons c t ih =>
      rw [findAttribute?] at h
      split at h
      · next found hFound =>
        cases h
        refine ⟨[], c :: t, cut, rfl, by simp, ?_, hFound, rfl⟩
        intro x y hFront hNonempty
        exact absurd (List.append_eq_nil_iff.mp hFront.symm).2 hNonempty
      · next hNone =>
        split at h
        · cases h
        · next hStop =>
          obtain ⟨found, hFound, rfl⟩ := Option.map_eq_some_iff.mp h
          obtain ⟨front, rest, inner, rfl, hFront, hFirst, hInner, rfl⟩ := ih hFound
          refine ⟨c :: front, rest, inner, rfl, ?_, ?_, hInner, rfl⟩
          · exact List.not_mem_cons_of_ne_of_not_mem (Ne.symm hStop) hFront
          · intro x y hSplit hNonempty
            cases x with
            | nil =>
              obtain rfl : c :: front = y := hSplit
              exact hNone
            | cons d x => exact hFirst x y (List.cons.inj hSplit).2 hNonempty
  · rintro ⟨front, rest, inner, rfl, hFront, hFirst, hInner, rfl⟩
    induction front with
    | nil =>
      obtain ⟨c, rest, rfl⟩ : ∃ c rest', rest = c :: rest' := by
        cases rest with
        | nil => simp [cutAttribute?] at hInner
        | cons c rest => exact ⟨c, rest, rfl⟩
      rw [List.nil_append, findAttribute?, hInner]
      rfl
    | cons c front ih =>
      obtain ⟨hStop, hFront⟩ := List.ne_and_not_mem_of_not_mem_cons hFront
      have hHere : cutAttribute? form finish (c :: (front ++ rest)) = none :=
        hFirst [] (c :: front) rfl (by simp)
      rw [List.cons_append, findAttribute?, hHere]
      simp only [if_neg (Ne.symm hStop),
        ih hFront fun x y hSplit => hFirst (c :: x) y (by rw [hSplit]; rfl)]
      rfl

/-- The name is written without blanks. -/
def AttributeForm.Solid (form : AttributeForm) : Prop :=
  ∀ n ∈ form.name, ∀ c, Text.isBlank c = true → form.same n c = false

/-- An attribute is found as it is written, behind a text in which it does not begin. -/
theorem findAttribute?_of_written {form : AttributeForm} {finish : Text → Option Text}
    {between written address left behind : Text} {blank quote : Char}
    (hSolid : form.Solid) (hStop : form.stop ∉ between)
    (hFree : ∀ x y, between = x ++ y → ¬ form.Begins y) (hBlank : Text.isBlank blank = true)
    (hWritten : List.Forall₂ (fun n c => form.same n c = true) form.name written)
    (hQuote : quote ∈ form.quotes) (hAddress : quote ∉ address)
    (hFinish : finish left = some behind) :
    findAttribute? form finish
        (between ++ blank :: (written ++ '=' :: quote :: (address ++ quote :: left))) =
      some { lead := between ++ blank :: (written ++ ['=', quote]), quote, address
             tail := quote :: behind } := by
  have hEquals : blank ≠ '=' := by
    rintro rfl
    revert hBlank
    decide
  have hName : ∀ n ∈ form.name, form.same n blank = false :=
    fun n hn => hSolid n hn blank hBlank
  have hFirst : ∀ x y, between = x ++ y → y ≠ [] → cutAttribute? form finish
      (y ++ blank :: (written ++ '=' :: quote :: (address ++ quote :: left))) = none := by
    intro x y hSplit hNonempty
    rw [Option.eq_none_iff_forall_ne_some]
    intro cut hCut
    exact hFree x y hSplit
      ((AttributeForm.Begins.of_cutAttribute? hCut).of_append hEquals hName hNonempty)
  have hHere := cutAttribute?_eq_some_iff.mpr
    ⟨blank, written, quote, address, left, behind, hBlank, hWritten, hQuote, hAddress, rfl, hFinish,
      rfl⟩
  exact findAttribute?_eq_some_iff.mpr ⟨between, _, _, rfl, hStop, hFirst, hHere, rfl⟩

end Directive

end AssetLoom
