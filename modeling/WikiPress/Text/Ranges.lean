/-!
# WikiPress.Text.Ranges

Sets of numbers as tables of ranges.
-/

namespace WikiPress.Text

/-- Whether a number lies in one of the ranges of a table sorted by their ends. -/
def inRanges : List (Nat × Nat) → Nat → Bool
  | [], _ => false
  | (low, high) :: rest, n => if n ≤ high then decide (low ≤ n) else inRanges rest n

end WikiPress.Text
