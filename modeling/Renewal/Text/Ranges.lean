import Renewal.Text.CodePoint

/-! # Sets of code points given by ranges -/

namespace Renewal

/-- A set of code points as closed ranges of their numbers. -/
structure CodeRanges where
  /-- The first and the last number of each range. -/
  ranges : Array (Nat × Nat)

/-- Whether a code point lies in one of the ranges. -/
def CodeRanges.contains (set : CodeRanges) (c : CodePoint) : Bool :=
  set.ranges.any fun (first, last) => first ≤ c.code && c.code ≤ last

end Renewal
