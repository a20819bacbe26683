import AssetLoom.Proofs.Search

/-!
# What simple expressions match

Repetitions of a set of characters, one character at a time (`star_greedy_cons`,
`star_lazy_cons`). If what follows cannot start with a character of the set, a greedy one goes as
far as it can, and there is no way back (`star_greedy_eq`).
-/

namespace AssetLoom.Pattern

@[simp] theorem contains_single (c d : Char) :
    (CharSet.single d).contains c = decide (c = d) := by
  show (decide (d.val ≤ c.val) && decide (c.val ≤ d.val)) = _
  rw [← Bool.decide_and, decide_eq_decide, ← Char.le_def, ← Char.le_def]
  exact ⟨fun h => Char.le_antisymm h.2 h.1, fun h => h ▸ ⟨Char.le_refl _, Char.le_refl _⟩⟩

/-- What is matched does not depend on the character in front of it. -/
def Blind (sequel : Sequel) : Prop :=
  ∀ before before' index rest, sequel ⟨before, index, rest⟩ = sequel ⟨before', index, rest⟩

variable {set : CharSet} {sequel : Sequel} {before : Option Char} {index : Nat} {c : Char}
  {rest : Text} {slots : Slots}

namespace Expr

/-- Any number of characters of a set. -/
def star (set : CharSet) (greedy : Bool) : Expr :=
  .repetition (.oneOf set) 0 none greedy

theorem matchThen_seqOf (es : List Expr) (sequel : Sequel) :
    (seqOf es).matchThen sequel = es.foldr matchThen sequel := by
  induction es with
  | nil => rfl
  | cons e es ih =>
    cases es with
    | nil => rfl
    | cons e' es => exact congrArg e.matchThen ih

@[simp] theorem oneOf_nil :
    (oneOf set).matchThen sequel ⟨before, index, []⟩ slots = none := rfl

@[simp] theorem oneOf_cons :
    (oneOf set).matchThen sequel ⟨before, index, c :: rest⟩ slots =
      if set.contains c then sequel ⟨some c, index + 1, rest⟩ slots else none := rfl

/-- A character of the set and then any number of them, or none. -/
theorem star_eq (set : CharSet) (greedy : Bool) (sequel : Sequel) :
    (star set greedy).matchThen sequel =
      choose greedy ((oneOf set).matchThen ((star set greedy).matchThen sequel)) sequel :=
  Reads.rounds_eq (reads_matchThen (e := .oneOf set) rfl) sequel

@[simp] theorem star_nil {greedy : Bool} :
    (star set greedy).matchThen sequel ⟨before, index, []⟩ slots =
      sequel ⟨before, index, []⟩ slots := by
  rw [star_eq, choose]
  cases greedy <;> simp

theorem star_greedy_cons :
    (star set true).matchThen sequel ⟨before, index, c :: rest⟩ slots =
      if set.contains c then
        ((star set true).matchThen sequel ⟨some c, index + 1, rest⟩ slots).or
          (sequel ⟨before, index, c :: rest⟩ slots)
      else sequel ⟨before, index, c :: rest⟩ slots := by
  rw [star_eq, choose, if_pos rfl, oneOf_cons]
  split
  · rw [← star_eq]
  · rfl

theorem star_lazy_cons :
    (star set false).matchThen sequel ⟨before, index, c :: rest⟩ slots =
      (sequel ⟨before, index, c :: rest⟩ slots).or
        (if set.contains c then
          (star set false).matchThen sequel ⟨some c, index + 1, rest⟩ slots
        else none) := by
  rw [star_eq, choose, if_neg (by simp), oneOf_cons, ← star_eq]

end Expr

/-- If the sequel fails at the characters of the set, all of them are read that come next. -/
theorem Blind.star_greedy_eq (hBlind : Blind sequel) (set : CharSet)
    (hFails : ∀ {before index c rest} slots, set.contains c = true →
      sequel ⟨before, index, c :: rest⟩ slots = none)
    (before : Option Char) (index : Nat) (t : Text) (slots : Slots) :
    (Expr.star set true).matchThen sequel ⟨before, index, t⟩ slots =
      sequel ⟨none, index + (t.takeWhile set.contains).length, t.dropWhile set.contains⟩ slots := by
  induction t generalizing before index with
  | nil => rw [Expr.star_nil, hBlind before none]; rfl
  | cons c t ih =>
    rw [Expr.star_greedy_cons]
    split
    · next hIn =>
      rw [ih, hFails slots hIn, Option.or_none, List.takeWhile_cons_of_pos hIn,
        List.dropWhile_cons_of_pos hIn, List.length_cons, Nat.add_assoc, Nat.add_comm 1]
    · next hOut =>
      rw [List.takeWhile_cons_of_neg hOut, List.dropWhile_cons_of_neg hOut, hBlind before none]
      rfl

end AssetLoom.Pattern
