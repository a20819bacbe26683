import AssetLoom.Text.Interval
/-!
# Blank characters

White space as the Unicode standard defines it.
-/

namespace AssetLoom.Text

/-- White space. -/
def blankIntervals : List (Nat × Nat) := [
  (0x9, 0xD), (0x20, 0x20), (0x85, 0x85), (0xA0, 0xA0), (0x1680, 0x1680), (0x2000, 0x200A),
  (0x2028, 0x2029), (0x202F, 0x202F), (0x205F, 0x205F), (0x3000, 0x3000)]

/-- Whether `c` is white space. -/
def isBlank (c : Char) : Bool :=
  inIntervals blankIntervals c

end AssetLoom.Text
