/-!
# Ranges of code points

A property of code points is kept as an ascending list of ranges. A look-up walks the list and
stops at the first range beyond the code point.
-/

namespace TextGrid.Unicode

/-- Disjoint ranges of code points in ascending order, both ends included. -/
abbrev Ranges := List (Nat × Nat)

/-- Whether a code point lies in one of the ranges. -/
def Ranges.contains : Ranges → Nat → Bool
  | [], _ => false
  | (low, high) :: rest, code =>
    if code < low then false else decide (code ≤ high) || Ranges.contains rest code

end TextGrid.Unicode
