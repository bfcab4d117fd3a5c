/-!
# Sets of code points

Character classes beyond ASCII are lists of closed intervals of code points.
-/

namespace Crowfoot.Text

/-- Closed intervals of code points. -/
abbrev Intervals := List (Nat × Nat)

/-- The code point lies in one of the intervals. -/
def Intervals.has (intervals : Intervals) (codePoint : Nat) : Bool :=
  intervals.any fun interval => interval.1 ≤ codePoint && codePoint ≤ interval.2

theorem Intervals.has_iff {intervals : Intervals} {codePoint : Nat} :
    intervals.has codePoint = true ↔
      ∃ interval ∈ intervals, interval.1 ≤ codePoint ∧ codePoint ≤ interval.2 := by
  simp [Intervals.has]

end Crowfoot.Text
