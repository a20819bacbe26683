import AssetLoom.Pattern
import AssetLoom.Proofs.Emission

/-!
# Searching for a pattern

A pattern that has been read finds its matches where its expression can be matched up to the end
(`Parsed.searchFrom_pattern`). The matches of a text follow one another (`matchesFrom`);
`eraseAll` leaves all of them out.
-/

namespace AssetLoom.Pattern

/-! ## Patterns that have been read -/

/-- The pattern with a source that has been read. -/
def Parsed.pattern (parsed : Parsed) (source : String) : Pattern :=
  ⟨source, Machine.ofExpr parsed.expr, parsed.groups, parsed.names⟩

theorem parse?_eq_ok {source : String} {parsed : Parsed}
    (h : (parse source.toList).toOption = some parsed) :
    parse? source = .ok (parsed.pattern source) := by
  unfold parse?
  cases hParse : parse source.toList with
  | error fault => simp [hParse, Except.toOption] at h
  | ok result =>
    obtain rfl : result = parsed := by simpa [hParse, Except.toOption] using h
    rfl

/-- The slots of a pattern before anything has been noted. -/
def freshSlots (groups : Nat) : Slots :=
  Array.replicate (2 * (groups + 1)) none

/-- What has been noted when a match starts. -/
def started (groups start : Nat) : Slots :=
  (freshSlots groups).setIfInBounds 0 (some start)

theorem started_zero (groups start : Nat) : (started groups start)[0]? = some (some start) := by
  simp [started, freshSlots]

theorem started_of_pos {i : Nat} (groups start : Nat) (h : 0 < i) :
    (started groups start)[i]?.join = none := by
  rw [started, Array.getElem?_setIfInBounds_ne (Nat.ne_of_lt h), freshSlots,
    Array.getElem?_replicate]
  split <;> rfl

@[simp] theorem size_started (groups start : Nat) :
    (started groups start).size = 2 * (groups + 1) := by
  simp [started, freshSlots]

/-- The pattern has been matched. -/
def accepted : Sequel := fun stop slots =>
  some (slots.setIfInBounds 1 (some stop.index))

theorem Expr.matchAt_eq (e : Expr) (groups : Nat) (spot : Spot) :
    e.matchAt groups spot = e.matchThen accepted spot (started groups spot.index) := rfl

/-- A search finds the first place from which the expression can be matched. -/
theorem Parsed.searchFrom_pattern {parsed : Parsed} (h : parsed.expr.isProper) (source : String)
    (before : Option Char) (index : Nat) (t : Text) :
    searchFrom (parsed.pattern source).machine (freshSlots (parsed.pattern source).groups) before
        index [] none t =
      firstFrom (parsed.expr.matchAt parsed.groups) before index t :=
  searchFrom_ofExpr h parsed.groups before index t

/-! ## All matches -/

/-- The slots of all matches from a position on, for a pattern that does not match the empty text:
behind one match the next one is searched for. -/
def matchesFrom (p : Pattern) (t : Text) (start : Nat) : List Slots :=
  match searchFrom p.machine (freshSlots p.groups) (t.take start).getLast? start [] none
      (t.drop start) with
  | none => []
  | some slots =>
    let stop := (slots[1]?.join).getD start
    if start < stop ∧ stop ≤ t.length then slots :: matchesFrom p t stop else [slots]
termination_by t.length - start

variable {p : Pattern} {t : Text}

theorem matchesFrom_eq_nil {start : Nat}
    (h : searchFrom p.machine (freshSlots p.groups) (t.take start).getLast? start [] none
      (t.drop start) = none) : p.matchesFrom t start = [] := by
  rw [matchesFrom, h]

theorem matchesFrom_eq_cons {start stop : Nat} {slots : Slots}
    (h : searchFrom p.machine (freshSlots p.groups) (t.take start).getLast? start [] none
      (t.drop start) = some slots)
    (hStop : slots[1]?.join = some stop) (hLt : start < stop) (hLe : stop ≤ t.length) :
    p.matchesFrom t start = slots :: p.matchesFrom t stop := by
  rw [matchesFrom, h]
  dsimp only
  rw [hStop, Option.getD_some, if_pos ⟨hLt, hLe⟩]

/-- The text without the matches of a pattern that does not match the empty text and does not look
at what precedes a match: behind one match the next one is searched for. -/
def eraseAll (p : Pattern) (t : Text) : Text :=
  match p.find? t with
  | none => t
  | some found =>
    if found.after.length < t.length then found.before ++ eraseAll p found.after else t
termination_by t.length

theorem eraseAll_of_find?_eq_none (h : p.find? t = none) : p.eraseAll t = t := by
  rw [eraseAll, h]

theorem eraseAll_of_find?_eq_some {found : Match} (h : p.find? t = some found)
    (hLess : found.after.length < t.length) :
    p.eraseAll t = found.before ++ p.eraseAll found.after := by
  rw [eraseAll, h]
  dsimp only
  rw [if_pos hLess]

end AssetLoom.Pattern
