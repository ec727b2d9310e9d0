/-!
# Sorted ranges of numbers
-/

namespace AhoyScan

/-- The number lies in one of the ranges. They have both ends and are given in ascending order, so
only the first one that ends at the number or after it can hold it. -/
def inRanges (ranges : List (Nat × Nat)) (n : Nat) : Bool :=
  (ranges.find? (n ≤ ·.2)).any (·.1 ≤ n)

end AhoyScan
