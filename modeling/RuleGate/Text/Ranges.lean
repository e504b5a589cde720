/-!
# Tables of character ranges

A property of characters as a list of inclusive code point ranges in ascending order.
-/

namespace RuleGate.Text

/-- Membership in an ascending list of ranges; the scan stops at the first range above `n`. -/
def inRanges : List (Nat × Nat) → Nat → Bool
  | [], _ => false
  | (low, high) :: r, n => if n < low then false else if n ≤ high then true else inRanges r n

end RuleGate.Text
