/-!
# Ranges of code points

Classes of characters are given by tables of closed ranges.
-/

namespace EvalServer.Text

/-- Whether a number is in one of some closed ranges. -/
def inRanges (ranges : List (Nat × Nat)) (n : Nat) : Bool :=
  ranges.any fun r => decide (r.1 ≤ n) && decide (n ≤ r.2)

end EvalServer.Text
