import AssetLoom.Proofs.Attribute
import AssetLoom.Proofs.Matching

/-!
# Names in patterns

A name is matched one character after the other, in any case or as it is written
(`foldr_spelling`). For a character that is its own folding, the variants by case that a pattern
allows are those that fold to it (`Text.contains_anyCase_single`); a sign has none
(`contains_sign`).
-/

namespace AssetLoom

namespace Text

variable {n c : Char}

/-- No character folds to another one of ASCII than a lower case letter, and apart from upper case
letters none of ASCII folds to another one. -/
theorem foldRuns_ascii : ∀ run ∈ foldRuns, 0x61 ≤ run.first + run.shift ∧
    (run.first = 0x41 ∧ run.last = 0x5A ∨ 0xB5 ≤ run.first) := by
  decide +kernel

/-- The character is its own folding. -/
def Unfolded (n : Char) : Prop :=
  0 < n.toNat ∧ (n.toNat < 0x41 ∨ 0x5B ≤ n.toNat ∧ n.toNat < 0xB5)

instance : DecidablePred Unfolded := fun n =>
  inferInstanceAs (Decidable (0 < n.toNat ∧ (n.toNat < 0x41 ∨ 0x5B ≤ n.toNat ∧ n.toNat < 0xB5)))

/-- Only the characters of the text are looked at. -/
instance decidableForallMem (t : Text) (P : Char → Prop) [DecidablePred P] :
    Decidable (∀ c ∈ t, P c) :=
  List.decidableBAll P t

theorem Unfolded.not_contains (h : Unfolded n) {run : FoldRun} (hRun : run ∈ foldRuns) :
    run.contains n.toNat = false := by
  have := h.2
  have := (foldRuns_ascii run hRun).2
  rw [Bool.eq_false_iff]
  intro hContains
  simp only [FoldRun.contains, Bool.and_eq_true, decide_eq_true_eq] at hContains
  omega

theorem Unfolded.fold_eq (h : Unfolded n) : fold n = n := by
  have hNone : foldRuns.find? (·.contains n.toNat) = none :=
    List.find?_eq_none.mpr fun run hRun => by simp [h.not_contains hRun]
  rw [fold, foldPoint, hNone, Char.ofNat_toNat]

theorem toNat_ofNat_of_ne {m : Nat} (h : Char.ofNat m ≠ '\x00') : (Char.ofNat m).toNat = m := by
  by_cases hValid : m.isValidChar
  · rw [Char.ofNat, dif_pos hValid]
    rfl
  · exact absurd (dif_neg hValid) h

/-- The variants of a character by case are those with the same folding. -/
theorem contains_anyCase_single (h : Unfolded n) (c : Char) :
    (Pattern.CharSet.anyCase (.single n)).contains c = (fold c == n) := by
  rw [Bool.eq_iff_iff, beq_iff_eq]
  simp only [Pattern.CharSet.contains, Pattern.contains_single, Bool.or_eq_true, decide_eq_true_eq,
    List.any_eq_true, caseVariants, List.mem_cons, List.mem_filterMap]
  constructor
  · rintro (rfl | ⟨_, hHead | ⟨run, hRun, hVariant⟩, rfl⟩)
    · exact h.fold_eq
    · exact hHead.symm
    · -- Whatever folds as `n` does belongs to a run of its own.
      simp only [Option.ite_none_right_eq_some, Option.some.injEq] at hVariant
      obtain ⟨hContains, hSame⟩ := hVariant
      have hPoint := toNat_ofNat_of_ne (m := ((foldPoint c.toNat : Int) - run.shift).toNat) (by
        rw [hSame]
        rintro rfl
        exact absurd h.1 (by decide))
      rw [hSame] at hPoint
      rw [← hPoint, h.not_contains hRun] at hContains
      cases hContains
  · rintro rfl
    exact .inr ⟨_, .inl rfl, rfl⟩

/-- A character that is not its own folding belongs to a run. -/
theorem fold_cases (hZero : fold c ≠ '\x00') : fold c = c ∨ ∃ run ∈ foldRuns,
    run.first ≤ c.toNat ∧ c.toNat ≤ run.last ∧
      (fold c).toNat = ((c.toNat : Int) + run.shift).toNat := by
  unfold fold foldPoint at hZero ⊢
  cases hFind : foldRuns.find? (·.contains c.toNat) with
  | none => exact .inl (Char.ofNat_toNat c)
  | some run =>
    rw [hFind] at hZero
    have hRun := List.find?_some hFind
    simp only [FoldRun.contains, Bool.and_eq_true, decide_eq_true_eq] at hRun
    exact .inr ⟨run, List.mem_of_find?_eq_some hFind, hRun.1.1, hRun.1.2, toNat_ofNat_of_ne hZero⟩

/-- A character that is neither a letter nor beyond ASCII has no other case. -/
theorem fold_eq_iff_of_lt (hPos : 0 < n.toNat) (hLt : n.toNat < 0x41) : fold c = n ↔ c = n := by
  constructor
  · rintro rfl
    rcases fold_cases (c := c) (fun hZero => by simp [hZero] at hPos) with hSame | hRun
    · exact hSame.symm
    · obtain ⟨run, hRun, hFirst, -, hPoint⟩ := hRun
      have := (foldRuns_ascii run hRun).1
      omega
  · rintro rfl
    exact Unfolded.fold_eq ⟨hPos, .inl hLt⟩

/-- What folds to a lower case letter of ASCII may stand in a word: a letter of ASCII, the long s or
the sign for Kelvin. -/
theorem isWord_of_fold (hLow : 0x61 ≤ (fold c).toNat) (hHigh : (fold c).toNat ≤ 0x7A) :
    isWord c = true := by
  have hRuns : ∀ run ∈ foldRuns, run.first = 0x41 ∧ run.last = 0x5A ∨
      run.first = 0x17F ∧ run.last = 0x17F ∨ run.first = 0x212A ∧ run.last = 0x212A ∨
      0x7B ≤ run.first + run.shift := by
    decide +kernel
  have hLetters : ∀ m < 0x7B, 0x41 ≤ m ∧ m ≤ 0x5A ∨ 0x61 ≤ m → isWord (Char.ofNat m) = true := by
    decide +kernel
  obtain hAscii | hOther : (c.toNat < 0x7B ∧ (0x41 ≤ c.toNat ∧ c.toNat ≤ 0x5A ∨ 0x61 ≤ c.toNat)) ∨
      (c.toNat = 0x17F ∨ c.toNat = 0x212A) := by
    rcases fold_cases (c := c) (fun hZero => by simp [hZero] at hLow) with hSame | hRun
    · rw [hSame] at hLow hHigh
      omega
    · obtain ⟨run, hRun, hFirst, hLast, hPoint⟩ := hRun
      have := hRuns run hRun
      omega
  · have := hLetters c.toNat hAscii.1 hAscii.2
    rwa [Char.ofNat_toNat] at this
  · rw [← Char.ofNat_toNat c]
    rcases hOther with h | h <;> rw [h] <;> decide +kernel

end Text

namespace Directive

open Pattern

/-- The characters that are compared with `n`, in any case or as they are. -/
def letterSet (anyCase : Bool) (n : Char) : CharSet :=
  if anyCase then .anyCase (.single n) else .single n

/-- How characters are compared with a name. -/
def sameLetter (anyCase : Bool) : Char → Char → Bool :=
  if anyCase then inAnyCase else exactly

/-- One expression for each character of a name. -/
def spelling (anyCase : Bool) (name : Text) : List Expr :=
  name.map fun n => .oneOf (letterSet anyCase n)

variable {anyCase : Bool} {name : Text} {n c : Char}

theorem contains_letterSet (h : Text.Unfolded n) (c : Char) :
    (letterSet anyCase n).contains c = sameLetter anyCase n c := by
  cases anyCase with
  | true => exact Text.contains_anyCase_single h c
  | false => rw [letterSet, sameLetter, if_neg (by simp), if_neg (by simp), contains_single]; rfl

/-- Every other character. -/
def others (anyCase : Bool) (n : Char) : CharSet :=
  .compl (letterSet anyCase n)

/-- A sign is no letter, so case does not matter. -/
def IsSign (anyCase : Bool) (n : Char) : Prop :=
  anyCase = true → 0 < n.toNat ∧ n.toNat < 0x41

theorem isSign_false (n : Char) : IsSign false n :=
  nofun

theorem sameLetter_sign (h : IsSign anyCase n) (c : Char) :
    sameLetter anyCase n c = decide (c = n) := by
  cases anyCase with
  | true =>
    obtain ⟨hPos, hLt⟩ := h rfl
    rw [Bool.eq_iff_iff, decide_eq_true_eq]
    exact beq_iff_eq.trans (Text.fold_eq_iff_of_lt hPos hLt)
  | false => rfl

theorem contains_sign (h : IsSign anyCase n) :
    (letterSet anyCase n).contains = fun c => decide (c = n) := by
  funext c
  cases anyCase with
  | true =>
    obtain ⟨hPos, hLt⟩ := h rfl
    rw [contains_letterSet ⟨hPos, .inl hLt⟩, sameLetter_sign h]
  | false => exact contains_single c n

theorem contains_others (h : IsSign anyCase n) :
    (others anyCase n).contains = fun c => decide (c ≠ n) := by
  funext c
  rw [others, CharSet.contains, contains_sign h]
  simp

theorem stripName?_append_name (same : Char → Char → Bool) (name other t : Text) :
    stripName? same (name ++ other) t = (stripName? same name t).bind (stripName? same other) := by
  induction name generalizing t with
  | nil => rfl
  | cons n name ih =>
    cases t with
    | nil => rfl
    | cons c t =>
      rw [List.cons_append, stripName?, stripName?]
      split
      · exact ih t
      · rfl

/-- A name is matched where it is written, and what follows it goes on there. -/
theorem foldr_spelling (hName : ∀ n ∈ name, Text.Unfolded n) (sequel : Sequel)
    (before : Option Char) (index : Nat) (t : Text) (slots : Slots) :
    (spelling anyCase name).foldr Expr.matchThen sequel ⟨before, index, t⟩ slots =
      (stripName? (sameLetter anyCase) name t).bind fun left =>
        sequel ⟨(t.take name.length).getLast?.or before, index + name.length, left⟩ slots := by
  induction name generalizing before index t with
  | nil => rfl
  | cons n name ih =>
    obtain ⟨hFirst, hRest⟩ := List.forall_mem_cons.mp hName
    cases t with
    | nil => rfl
    | cons c t =>
      rw [spelling, List.map_cons, List.foldr_cons, Expr.oneOf_cons, contains_letterSet hFirst,
        stripName?]
      split
      · rw [← spelling, ih hRest, List.length_cons, List.take_succ_cons, List.getLast?_cons,
          Nat.add_assoc, Nat.add_comm 1]
        cases (t.take name.length).getLast? <;> rfl
      · rfl

/-- A name that has to end where the word ends. -/
theorem foldr_word (hName : ∀ n ∈ name, Text.Unfolded n) (hNonempty : name ≠ [])
    (hWord : ∀ n ∈ name, ∀ c, sameLetter anyCase n c = true → Text.isWord c = true)
    (sequel : Sequel) (before : Option Char) (index : Nat) (t : Text) (slots : Slots) :
    (spelling anyCase name).foldr Expr.matchThen ((Expr.look (.wordEdge false)).matchThen sequel)
        ⟨before, index, t⟩ slots =
      (stripName? (sameLetter anyCase) name t).bind fun left =>
        if endsWord left then
          sequel ⟨(t.take name.length).getLast?.or before, index + name.length, left⟩ slots
        else none := by
  rw [foldr_spelling hName]
  cases hStrip : stripName? (sameLetter anyCase) name t with
  | none => rfl
  | some left =>
    obtain ⟨written, rfl, hWritten⟩ := stripName?_eq_some hStrip
    obtain ⟨last, hLast, hWordLast⟩ :
        ∃ last, written.getLast? = some last ∧ Text.isWord last = true := by
      have hSome : written ≠ [] := by
        rintro rfl
        exact hNonempty (List.forall₂_nil_right_iff.mp hWritten)
      obtain ⟨n, hn, hSame⟩ := exists_of_mem_forall₂ hWritten (List.getLast_mem hSome)
      exact ⟨_, List.getLast?_eq_some_getLast hSome, hWord n hn _ hSame⟩
    have hEdge : (Look.wordEdge false).holds (some last) left.head? = endsWord left := by
      cases left <;> simp [Look.holds, Look.isWordChar, endsWord, hWordLast]
    rw [Option.bind_some, Option.bind_some, take_of_forall₂ _ hWritten, hLast, ← hEdge]
    rfl

end Directive

end AssetLoom
