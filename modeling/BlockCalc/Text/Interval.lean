/-!
# BlockCalc.Text.Interval

Sets of code points given by their closed intervals, in ascending order.
-/

namespace BlockCalc

/-- Closed intervals of code points, in ascending order. -/
abbrev Intervals := List (Nat × Nat)

namespace Intervals

def covers (t : Intervals) (n : Nat) : Bool := t.any fun r => r.1 ≤ n && n ≤ r.2

end Intervals
end BlockCalc
