import AssetLoom.Pattern.Search
import Mathlib.Logic.Function.Iterate

/-!
# What an expression prefers

An expression is read as a search with a way back: it tries its ways to match in order, and each
of them goes on with what is to be matched behind it (`Expr.matchThen`). The first way that comes
to the end of the pattern wins.

How far an expression looks is told by `Reads`: what is given from a spot depends on the sequel at
the spots behind it only, and if the expression reads at least one character, on those further
behind. So a repetition of such an expression can go round as often as it likes (`rounds_eq`).
-/

namespace AssetLoom.Pattern

/-- A position in a text, with what is left of the text. -/
structure Spot where
  before : Option Char
  index : Nat
  rest : Text

/-- The characters around a spot, and its number. -/
def Spot.place (spot : Spot) : Place :=
  ⟨spot.before, spot.rest.head?, spot.index⟩

/-- What is to be matched behind a part of a pattern: from a spot, with what has been noted before,
the slots of the preferred way. -/
abbrev Sequel := Spot → Slots → Option Slots

/-- Goes on or leaves, whichever is preferred; if that comes to nothing, the other one. -/
def choose (greedy : Bool) (goOn leave : Sequel) : Sequel := fun spot slots =>
  if greedy then (goOn spot slots).or (leave spot slots)
  else (leave spot slots).or (goOn spot slots)

/-- Goes round at most `count` times before it leaves; `last` comes behind the last round. -/
def roundsUpTo (greedy : Bool) (round : Sequel → Sequel) (leave : Sequel) (count : Nat)
    (last : Sequel) : Sequel :=
  (fun goOn => choose greedy (round goOn) leave)^[count] last

/-- Goes round any number of times before it leaves. Each round is to read a character, so there is
no use in more rounds than there are characters left. -/
def rounds (greedy : Bool) (round : Sequel → Sequel) (leave : Sequel) : Sequel :=
  fun spot slots =>
    roundsUpTo greedy round leave (spot.rest.length + 1) (fun _ _ => none) spot slots

namespace Expr

/-- The slots of the preferred way to match the expression and then what follows it. -/
def matchThen : Expr → Sequel → Sequel
  | .empty, sequel => sequel
  | .oneOf set, sequel => fun spot slots =>
    match spot.rest with
    | c :: rest => if set.contains c then sequel ⟨some c, spot.index + 1, rest⟩ slots else none
    | [] => none
  | .look condition, sequel => fun spot slots =>
    if condition.holds spot.before spot.rest.head? then sequel spot slots else none
  | .group index body, sequel => fun spot slots =>
    body.matchThen (fun stop slots =>
        sequel stop (slots.setIfInBounds (2 * index + 1) (some stop.index)))
      spot (slots.setIfInBounds (2 * index) (some spot.index))
  | .seq first second, sequel => first.matchThen (second.matchThen sequel)
  | .alt first second, sequel => fun spot slots =>
    (first.matchThen sequel spot slots).or (second.matchThen sequel spot slots)
  | .repetition body least (some most) greedy, sequel =>
    body.matchThen^[least] (roundsUpTo greedy body.matchThen sequel (most - least) sequel)
  | .repetition body least none greedy, sequel =>
    body.matchThen^[least] (rounds greedy body.matchThen sequel)

/-- What is repeated without an end reads a character each time. -/
def isProper : Expr → Bool
  | .empty | .oneOf _ | .look _ => true
  | .group _ body => body.isProper
  | .seq first second | .alt first second => first.isProper && second.isProper
  | .repetition body _ most _ => (most.isSome || !body.isNullable) && body.isProper

end Expr

/-! ## How far an expression looks -/

/-- Two sequels agree where fewer than `n` characters are left. -/
def AgreeBelow (n : Nat) (f g : Sequel) : Prop :=
  ∀ spot, spot.rest.length < n → f spot = g spot

/-- A part of a pattern reads at least `count` characters before it goes on. -/
def Reads (count : Nat) (part : Sequel → Sequel) : Prop :=
  ∀ ⦃n f g⦄, AgreeBelow n f g → AgreeBelow (n + count) (part f) (part g)

variable {n m count : Nat} {f g : Sequel} {part first second : Sequel → Sequel} {greedy : Bool}

theorem AgreeBelow.mono (h : AgreeBelow m f g) (hLe : n ≤ m) : AgreeBelow n f g :=
  fun spot hSpot => h spot (by omega)

theorem AgreeBelow.choose {goOn goOn' leave leave' : Sequel} (hGoOn : AgreeBelow n goOn goOn')
    (hLeave : AgreeBelow n leave leave') :
    AgreeBelow n (choose greedy goOn leave) (Pattern.choose greedy goOn' leave') := by
  intro spot hSpot
  unfold Pattern.choose
  rw [hGoOn spot hSpot, hLeave spot hSpot]

theorem roundsUpTo_succ (greedy : Bool) (part : Sequel → Sequel) (leave : Sequel) (count : Nat)
    (last : Sequel) : roundsUpTo greedy part leave (count + 1) last =
      choose greedy (part (roundsUpTo greedy part leave count last)) leave :=
  Function.iterate_succ_apply' _ count last

namespace Reads

theorem mono (h : Reads m part) (hLe : n ≤ m) : Reads n part :=
  fun _ _ _ hAgree => (h hAgree).mono (by omega)

theorem comp (hFirst : Reads m first) (hSecond : Reads n second) :
    Reads (m + n) (first ∘ second) := by
  intro k f g hAgree
  refine (hFirst (hSecond hAgree)).mono ?_
  omega

theorem iterate (h : Reads count part) (times : Nat) : Reads (times * count) part^[times] := by
  induction times with
  | zero => exact fun _ _ _ hAgree => by simpa using hAgree
  | succ times ih =>
    rw [Function.iterate_succ, Nat.succ_mul]
    exact ih.comp h

theorem roundsUpTo (h : Reads 0 part) (count : Nat) :
    Reads 0 fun sequel => Pattern.roundsUpTo greedy part sequel count sequel := by
  intro n f g hAgree
  induction count with
  | zero => exact hAgree
  | succ count ih =>
    simp only [roundsUpTo_succ]
    exact (h ih).choose hAgree

/-- More rounds than there are characters left make no difference. -/
theorem roundsUpTo_of_lt (h : Reads 1 part) (leave : Sequel) (hLt : n < m) :
    AgreeBelow (n + 1) (Pattern.roundsUpTo greedy part leave m fun _ _ => none)
      (Pattern.roundsUpTo greedy part leave (n + 1) fun _ _ => none) := by
  induction n generalizing m with
  | zero =>
    obtain ⟨m, rfl⟩ : ∃ k, m = k + 1 := ⟨m - 1, by omega⟩
    rw [roundsUpTo_succ, roundsUpTo_succ]
    exact (h (n := 0) fun _ hSpot => absurd hSpot (by omega)).choose fun _ _ => rfl
  | succ n ih =>
    obtain ⟨m, rfl⟩ : ∃ k, m = k + 1 := ⟨m - 1, by omega⟩
    rw [roundsUpTo_succ, roundsUpTo_succ _ _ _ (n + 1)]
    exact (h (ih (by omega))).choose fun _ _ => rfl

/-- Any number of rounds is one round and then any number of them, or none. -/
theorem rounds_eq (h : Reads 1 part) (leave : Sequel) :
    rounds greedy part leave = Pattern.choose greedy (part (rounds greedy part leave)) leave := by
  funext spot slots
  have hRounds : AgreeBelow spot.rest.length
      (Pattern.roundsUpTo greedy part leave spot.rest.length fun _ _ => none)
      (rounds greedy part leave) := fun later hLater =>
    h.roundsUpTo_of_lt leave hLater later (Nat.lt_succ_self _)
  have hPart := h hRounds spot (Nat.lt_succ_self _)
  rw [rounds, roundsUpTo_succ]
  simp only [Pattern.choose, hPart]

theorem rounds (h : Reads 1 part) : Reads 0 (rounds greedy part) := by
  intro n f g hAgree
  induction n with
  | zero => exact fun spot hSpot => absurd hSpot (by omega)
  | succ n ih =>
    rw [h.rounds_eq f, h.rounds_eq g]
    exact (h (ih (hAgree.mono (by omega)))).choose hAgree

end Reads

/-- A proper expression reads a character, unless it can match the empty text. -/
theorem Expr.reads_matchThen {e : Expr} (h : e.isProper) :
    Reads (!e.isNullable).toNat e.matchThen := by
  induction e with
  | empty => exact fun _ _ _ hAgree => hAgree
  | oneOf set =>
    intro n f g hAgree spot hSpot
    funext slots
    unfold matchThen
    split
    · next c rest hRest =>
      rw [hRest] at hSpot
      rw [hAgree _ (by simpa [isNullable] using hSpot)]
    · rfl
  | look condition =>
    intro n f g hAgree spot hSpot
    funext slots
    unfold matchThen
    rw [hAgree spot hSpot]
  | group index body ih =>
    intro n f g hAgree spot hSpot
    funext slots
    unfold matchThen
    refine congrFun (ih h (n := n) (fun stop hStop => ?_) spot hSpot) _
    rw [hAgree stop hStop]
  | seq first second ihFirst ihSecond =>
    simp only [isProper, Bool.and_eq_true] at h
    have hBoth : Reads _ (seq first second).matchThen := (ihFirst h.1).comp (ihSecond h.2)
    refine hBoth.mono ?_
    rw [isNullable]
    cases first.isNullable <;> cases second.isNullable <;> decide
  | alt first second ihFirst ihSecond =>
    simp only [isProper, Bool.and_eq_true] at h
    intro n f g hAgree
    have hFirst : AgreeBelow (n + (!(alt first second).isNullable).toNat) _ _ :=
      (ihFirst h.1).mono (by rw [isNullable]; cases first.isNullable <;> simp [Bool.toNat_le])
        hAgree
    have hSecond : AgreeBelow (n + (!(alt first second).isNullable).toNat) _ _ :=
      (ihSecond h.2).mono (by rw [isNullable]; cases second.isNullable <;> simp [Bool.toNat_le])
        hAgree
    intro spot hSpot
    funext slots
    unfold matchThen
    rw [hFirst spot hSpot, hSecond spot hSpot]
  | repetition body least most greedy ih =>
    simp only [isProper, Bool.and_eq_true] at h
    have hBody := ih h.2
    cases most with
    | none =>
      have hOne : body.isNullable = false := by simpa using h.1
      rw [hOne] at hBody
      have hAll : Reads _ (repetition body least none greedy).matchThen :=
        (hBody.iterate least).comp hBody.rounds
      refine hAll.mono ?_
      rw [isNullable, hOne]
      cases least <;> simp
    | some most =>
      have hAll : Reads _ (repetition body least (some most) greedy).matchThen :=
        (hBody.iterate least).comp ((hBody.mono (Nat.zero_le _)).roundsUpTo (most - least))
      refine hAll.mono ?_
      have hOne := Bool.toNat_le (!(some most == some 0))
      rw [isNullable]
      cases least <;> cases body.isNullable <;> simp at hOne ⊢
      omega

end AssetLoom.Pattern
