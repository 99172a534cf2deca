/-!
# Sets of characters as ranges

A set of characters is a list of ranges of code points.  `inRanges` is membership.
-/

namespace CellBridge
namespace Text

/-- Does one of the ranges, ends included, hold the code point? -/
def inRanges
    (ranges : List (Nat × Nat))
    (n : Nat) : Bool :=
  ranges.any fun r => decide (r.1 ≤ n) && decide (n ≤ r.2)

/-- A code point is in a set of ranges exactly when some range holds it. -/
theorem inRanges_iff
    (ranges : List (Nat × Nat))
    (n : Nat) :
    inRanges ranges n = true ↔ ∃ r ∈ ranges, r.1 ≤ n ∧ n ≤ r.2 := by
  simp [inRanges]

end Text
end CellBridge
