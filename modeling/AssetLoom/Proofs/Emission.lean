import AssetLoom.Proofs.Lockstep

/-!
# Programs do what their expressions say

The program for an expression is added to the program for what is matched behind it. Whatever the
node there gives, the new node gives what the expression prefers (`emits_emit`). A loop is closed
after its body has been added, so what counts is how the nodes of a part stand in the final
program (`Holds`). So a search for an expression finds the first spot from which it matches, and
the way that it prefers there (`searchFrom_ofExpr`).
-/

namespace AssetLoom.Pattern

/-- A program with more nodes. -/
structure Extends (code longer : Program) : Prop where
  size_le : code.size ≤ longer.size
  same : ∀ i < code.size, longer[i]? = code[i]?

/-- The final program has the nodes of `code` from the number `low` on. -/
def Holds (final : Program) (low : Nat) (code : Program) : Prop :=
  ∀ i, low ≤ i → i < code.size → final[i]? = code[i]?

/-- The node `i` gives what the sequel gives where fewer than `n` characters are left. -/
def GivesBelow (final : Program) (n i : Nat) (sequel : Sequel) : Prop :=
  ∀ spot : Spot, spot.rest.length < n → ∀ slots, Gives final spot i slots (sequel spot slots)

/-- A part of a program stands for a part of a pattern that reads at least `count` characters. -/
structure Emits (part : Nat → Program → Nat × Program) (meaning : Sequel → Sequel) (count : Nat) :
    Prop where
  extend : ∀ next code, Extends code (part next code).2
  gives : ∀ {final code : Program} {next n : Nat} {sequel : Sequel},
    Holds final code.size (part next code).2 → GivesBelow final n next sequel →
      GivesBelow final (n + count) (part next code).1 (meaning sequel)

variable {code longer final : Program} {low low' n m next inner count count' : Nat}
  {sequel last : Sequel}
  {part first second : Nat → Program → Nat × Program} {meaning meaning' : Sequel → Sequel}
  {greedy : Bool}

theorem Extends.refl (code : Program) : Extends code code :=
  ⟨Nat.le_refl _, fun _ _ => rfl⟩

theorem Extends.trans {longest : Program} (h : Extends code longer) (h' : Extends longer longest) :
    Extends code longest := by
  refine ⟨Nat.le_trans h.size_le h'.size_le, fun i hi => ?_⟩
  rw [h'.same i (Nat.lt_of_lt_of_le hi h.size_le), h.same i hi]

theorem extends_add (node : Node) (code : Program) : Extends code (code.add node).2 := by
  refine ⟨by simp [Program.add], fun i hi => ?_⟩
  simp [Program.add, Array.getElem?_push, Nat.ne_of_lt hi]

/-- What has been added before stands in the final program, too. -/
theorem Holds.of_extends (h : Holds final low longer) (hExtends : Extends code longer) :
    Holds final low code := by
  intro i hLow hi
  rw [h i hLow (Nat.lt_of_lt_of_le hi hExtends.size_le), hExtends.same i hi]

theorem Holds.mono (h : Holds final low code) (hLe : low ≤ low') : Holds final low' code :=
  fun i hLow hi => h i (Nat.le_trans hLe hLow) hi

theorem Holds.node {node : Node} (h : Holds final low (code.add node).2) (hLow : low ≤ code.size) :
    final[code.size]? = some node := by
  rw [h code.size hLow (by simp [Program.add])]
  simp [Program.add]

theorem GivesBelow.mono {i : Nat} (h : GivesBelow final m i sequel) (hLe : n ≤ m) :
    GivesBelow final n i sequel :=
  fun spot hSpot => h spot (by omega)

/-- A fork gives what is preferred. -/
theorem GivesBelow.choose {i body : Nat} {goOn leave : Sequel}
    (hNode : final[i]? = some (Program.chooseNode greedy body next))
    (hBody : GivesBelow final n body goOn) (hNext : GivesBelow final n next leave) :
    GivesBelow final n i (choose greedy goOn leave) := by
  intro spot hSpot slots
  unfold Pattern.choose
  unfold Program.chooseNode at hNode
  split at hNode
  · next hGreedy =>
    rw [if_pos hGreedy]
    exact .fork hNode (hBody spot hSpot slots) (hNext spot hSpot slots)
  · next hGreedy =>
    rw [if_neg hGreedy]
    exact .fork hNode (hNext spot hSpot slots) (hBody spot hSpot slots)

namespace Emits

theorem mono (h : Emits part meaning m) (hLe : n ≤ m) : Emits part meaning n :=
  ⟨h.extend, fun hHolds hNext => (h.gives hHolds hNext).mono (by omega)⟩

theorem id : Emits Prod.mk (fun sequel => sequel) 0 :=
  ⟨fun _ code => .refl code, fun _ hNext => hNext⟩

theorem oneOf (set : CharSet) :
    Emits (fun next code => code.add (.read set next)) (Expr.oneOf set).matchThen 1 := by
  refine ⟨fun next code => extends_add .., fun hHolds hNext spot hSpot slots => ?_⟩
  have hNode := hHolds.node (Nat.le_refl _)
  obtain ⟨before, index, rest⟩ := spot
  unfold Expr.matchThen
  cases rest with
  | nil => exact .unread hNode (by simp)
  | cons c rest =>
    dsimp only
    split
    · next hIn => exact .read hNode hIn (hNext _ (by simpa using hSpot) slots)
    · next hOut => exact .unread hNode (by simpa using hOut)

theorem look (condition : Look) :
    Emits (fun next code => code.add (.test condition next)) (Expr.look condition).matchThen 0 := by
  refine ⟨fun next code => extends_add .., fun hHolds hNext spot hSpot slots => ?_⟩
  have hNode := hHolds.node (Nat.le_refl _)
  unfold Expr.matchThen
  split
  · next hHolds => exact .test hNode hHolds (hNext spot hSpot slots)
  · next hFails => exact .untested hNode (by simpa using hFails)

theorem note (slot : Nat) : Emits (fun next code => code.add (.note slot next))
    (fun sequel spot slots => sequel spot (slots.setIfInBounds slot (some spot.index))) 0 :=
  ⟨fun _ _ => extends_add .., fun hHolds hNext spot hSpot _ =>
    .note (hHolds.node (Nat.le_refl _)) (hNext spot hSpot _)⟩

/-- One part before the other. -/
theorem comp (hFirst : Emits first meaning count) (hSecond : Emits second meaning' count') :
    Emits (fun next code => first (second next code).1 (second next code).2) (meaning ∘ meaning')
      (count + count') := by
  refine ⟨fun next code => (hSecond.extend next code).trans (hFirst.extend ..), ?_⟩
  intro final code next n sequel hHolds hNext
  have hBehind := hSecond.gives (hHolds.of_extends (hFirst.extend ..)) hNext
  refine (hFirst.gives (hHolds.mono (hSecond.extend next code).size_le) hBehind).mono ?_
  omega

theorem alt (hFirst : Emits first meaning count) (hSecond : Emits second meaning' count) :
    Emits (fun next code =>
        (first next (second next code).2).2.add
          (.fork (first next (second next code).2).1 (second next code).1))
      (fun sequel spot slots => (meaning sequel spot slots).or (meaning' sequel spot slots))
      count := by
  refine ⟨fun next code => ((hSecond.extend next code).trans (hFirst.extend ..)).trans
    (extends_add ..), fun {final code next n sequel} hHolds hNext spot hSpot slots => ?_⟩
  have hLow := ((hSecond.extend next code).trans (hFirst.extend next _)).size_le
  have hBoth := hHolds.of_extends (extends_add ..)
  refine .fork (hHolds.node hLow) ?_ ?_
  · exact hFirst.gives (hBoth.mono (hSecond.extend next code).size_le) hNext spot hSpot slots
  · exact hSecond.gives (hBoth.of_extends (hFirst.extend ..)) hNext spot hSpot slots

theorem times (h : Emits part meaning count) (times : Nat) :
    Emits (Program.times times part) meaning^[times] (times * count) := by
  induction times with
  | zero =>
    rw [Nat.zero_mul]
    exact Emits.id
  | succ times ih =>
    rw [Function.iterate_succ, Nat.succ_mul]
    exact ih.comp h

/-- Parts around each other, which all leave to the same node. -/
theorem extends_upTo (h : Emits part meaning count) (times next inner : Nat) (code : Program) :
    Extends code (Program.upTo times greedy part next inner code).2 := by
  induction times generalizing inner code with
  | zero => exact .refl code
  | succ times ih => exact ((h.extend inner code).trans (extends_add ..)).trans (ih ..)

theorem gives_upTo (h : Emits part meaning count) {times : Nat}
    (hHolds : Holds final code.size (Program.upTo times greedy part next inner code).2)
    (hNext : GivesBelow final n next sequel) (hInner : GivesBelow final n inner last) :
    GivesBelow final n (Program.upTo times greedy part next inner code).1
      (roundsUpTo greedy meaning sequel times last) := by
  induction times generalizing inner code last with
  | zero => exact hInner
  | succ times ih =>
    have hPart := h.extend inner code
    have hFork : Holds final code.size
        ((part inner code).2.add (Program.chooseNode greedy (part inner code).1 next)).2 :=
      hHolds.of_extends (h.extends_upTo ..)
    refine ih (hHolds.mono (hPart.trans (extends_add ..)).size_le) ?_
    refine .choose (hFork.node hPart.size_le) ?_ hNext
    exact (h.gives (hFork.of_extends (extends_add ..)) hInner).mono (by omega)

theorem upTo (h : Emits part meaning count) (greedy : Bool) (times : Nat) :
    Emits (fun next code => Program.upTo times greedy part next next code)
      (fun sequel => roundsUpTo greedy meaning sequel times sequel) 0 :=
  ⟨fun next code => h.extends_upTo times next next code,
    fun hHolds hNext => h.gives_upTo hHolds hNext hNext⟩

theorem extends_loop (h : Emits part meaning count) (greedy : Bool) (next : Nat) (code : Program) :
    Extends code (Program.loop greedy part next code).2.2 := by
  have hAll := (extends_add .accept code).trans (h.extend (code.add .accept).1 _)
  refine ⟨by simpa [Program.loop] using hAll.size_le, fun i hi => ?_⟩
  rw [← hAll.same i hi]
  exact Array.getElem?_setIfInBounds_ne (Nat.ne_of_gt hi)

/-- The fork of a loop gives what any number of rounds give: its body goes back to the fork behind
the character that it reads, where fewer are left. -/
theorem gives_loop (h : Emits part meaning 1) (hReads : Reads 1 meaning)
    (hHolds : Holds final code.size (Program.loop greedy part next code).2.2)
    (hNext : GivesBelow final n next sequel) :
    GivesBelow final n (Program.loop greedy part next code).2.1 (rounds greedy meaning sequel) ∧
      GivesBelow final (n + 1) (Program.loop greedy part next code).1
        (meaning (rounds greedy meaning sequel)) := by
  let opened := code.add .accept
  let body := part opened.1 opened.2
  have hOpen : Extends opened.2 body.2 := h.extend opened.1 opened.2
  have hSize : code.size < body.2.size :=
    Nat.lt_of_lt_of_le (by simp [opened, Program.add]) hOpen.size_le
  have hFork : final[code.size]? = some (Program.chooseNode greedy body.1 next) := by
    have hLast : code.size < (Program.loop greedy part next code).2.2.size := by
      simpa [Program.loop] using hSize
    rw [hHolds code.size (Nat.le_refl _) hLast]
    exact Array.getElem?_setIfInBounds_self_of_lt hSize
  have hBody : Holds final opened.2.size body.2 := by
    intro i hLow hi
    have hBefore : code.size + 1 ≤ i := by simpa [opened, Program.add] using hLow
    rw [hHolds i (by omega) (by simpa [Program.loop] using hi)]
    exact Array.getElem?_setIfInBounds_ne (Nat.ne_of_lt hBefore)
  have hBack {k : Nat} (hk : k ≤ n) :
      GivesBelow final k code.size (rounds greedy meaning sequel) := by
    induction k with
    | zero => exact fun spot hSpot => absurd hSpot (by omega)
    | succ k ih =>
      rw [hReads.rounds_eq]
      exact .choose hFork (h.gives hBody (ih (by omega))) (hNext.mono hk)
  exact ⟨hBack (Nat.le_refl n), h.gives hBody (hBack (Nat.le_refl n))⟩

/-- A loop that can be left before its body. -/
theorem loop (h : Emits part meaning 1) (hReads : Reads 1 meaning) (greedy : Bool) :
    Emits (fun next code => (Program.loop greedy part next code).2) (rounds greedy meaning) 0 :=
  ⟨h.extends_loop greedy, fun hHolds hNext => (h.gives_loop hReads hHolds hNext).1⟩

/-- A loop that starts with its body. -/
theorem enterLoop (h : Emits part meaning 1) (hReads : Reads 1 meaning) (greedy : Bool) :
    Emits (fun next code =>
        ((Program.loop greedy part next code).1, (Program.loop greedy part next code).2.2))
      (meaning ∘ rounds greedy meaning) 1 :=
  ⟨h.extends_loop greedy, fun hHolds hNext => (h.gives_loop hReads hHolds hNext).2⟩

end Emits

/-- The program for a proper expression gives what the expression prefers. -/
theorem emits_emit {e : Expr} (h : e.isProper) :
    Emits (Program.emit e) e.matchThen (!e.isNullable).toNat := by
  induction e with
  | empty => exact Emits.id
  | oneOf set => exact .oneOf set
  | look condition => exact .look condition
  | group index body ih =>
    have hAll := ((Emits.note (2 * index)).comp (ih h)).comp (Emits.note (2 * index + 1))
    exact hAll.mono (by simp [Expr.isNullable])
  | seq first second ihFirst ihSecond =>
    simp only [Expr.isProper, Bool.and_eq_true] at h
    refine Emits.mono ((ihFirst h.1).comp (ihSecond h.2)) ?_
    rw [Expr.isNullable]
    cases first.isNullable <;> cases second.isNullable <;> decide
  | alt first second ihFirst ihSecond =>
    simp only [Expr.isProper, Bool.and_eq_true] at h
    refine Emits.alt ((ihFirst h.1).mono ?_) ((ihSecond h.2).mono ?_)
    · rw [Expr.isNullable]
      cases first.isNullable <;> simp [Bool.toNat_le]
    · rw [Expr.isNullable]
      cases second.isNullable <;> simp [Bool.toNat_le]
  | repetition body least most greedy ih =>
    simp only [Expr.isProper, Bool.and_eq_true] at h
    have hBody := ih h.2
    cases most with
    | none =>
      have hOne : body.isNullable = false := by simpa using h.1
      have hReads := Expr.reads_matchThen h.2
      rw [hOne] at hBody hReads
      cases least with
      | zero =>
        have hAll := hBody.loop hReads greedy
        simpa [Program.emit, Expr.isNullable, hOne, Expr.matchThen] using hAll
      | succ least =>
        have hAll := (hBody.times least).comp (hBody.enterLoop hReads greedy)
        exact Emits.mono hAll (Nat.le_trans (Bool.toNat_le _) (by omega))
    | some most =>
      have hAll := (hBody.times least).comp (hBody.upTo greedy (most - least))
      refine Emits.mono hAll ?_
      have hOne := Bool.toNat_le (!(some most == some 0))
      rw [Expr.isNullable]
      cases least <;> cases body.isNullable <;> simp at hOne ⊢
      omega

/-- What the whole pattern gives from a spot: the slots of its preferred match there. -/
def Expr.matchAt (e : Expr) (groups : Nat) (spot : Spot) : Option Slots :=
  (group 0 e).matchThen (fun _ slots => some slots) spot (Array.replicate (2 * (groups + 1)) none)

/-- A search finds the first spot from which the pattern matches, and the match that is preferred
there. -/
theorem searchFrom_ofExpr {e : Expr} (h : e.isProper) (groups : Nat) (before : Option Char)
    (index : Nat) (t : Text) :
    searchFrom (Machine.ofExpr e) (Array.replicate (2 * (groups + 1)) none) before index [] none t =
      firstFrom (e.matchAt groups) before index t := by
  let code := (Machine.ofExpr e).code
  have hGroup := emits_emit (e := .group 0 e) h
  have hHolds : Holds code 1 code := fun _ _ _ => rfl
  have hAccept : code[0]? = some .accept := (hGroup.extend 0 #[.accept]).same 0 Nat.one_pos
  have hStart (spot : Spot) : Gives code spot (Machine.ofExpr e).start
      (Array.replicate (2 * (groups + 1)) none) (e.matchAt groups spot) := by
    refine hGroup.gives hHolds (n := spot.rest.length + 1) ?_ spot (by omega) _
    exact fun _ _ _ => .accept hAccept
  rw [searchFrom_eq hStart .nil]
  rfl

end AssetLoom.Pattern
