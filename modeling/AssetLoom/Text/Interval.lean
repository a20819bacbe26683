/-!
# Sets of characters given by intervals

The character classes of the library are tables of closed intervals of code points.
-/

namespace AssetLoom.Text

/-- Whether the code point of `c` lies in one of the closed intervals. -/
def inIntervals (table : List (Nat × Nat)) (c : Char) : Bool :=
  table.any fun (low, high) => low ≤ c.toNat && c.toNat ≤ high

/-- A character of a table lies between the ends of one of its intervals. -/
theorem inIntervals_eq_true_iff {table : List (Nat × Nat)} {c : Char} :
    inIntervals table c = true ↔ ∃ p ∈ table, p.1 ≤ c.toNat ∧ c.toNat ≤ p.2 := by
  simp [inIntervals]

end AssetLoom.Text
