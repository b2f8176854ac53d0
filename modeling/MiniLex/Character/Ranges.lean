/-!
# Sets of characters as ascending lists of code point ranges

A property of characters is tabulated as the ranges of code points that have it, first and last code point of each, in
ascending order with no overlap. A look-up walks the ranges from the lowest one and stops at the first that ends at or
after the code point asked for: that one holds it, or none does.
-/

namespace MiniLex

/-- Whether one of the ascending ranges holds the code point. -/
def inRanges : List (Nat × Nat) → Nat → Bool
  | [], _ => false
  | (first, last) :: ranges, n => if n ≤ last then decide (first ≤ n) else inRanges ranges n

end MiniLex
