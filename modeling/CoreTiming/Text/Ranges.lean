/-!
# Ranges of code points

A character class is given as a list of closed ranges of code points. `Ranges.holds` decides
membership, and `Ranges.holds_iff` says what it decides.
-/

namespace CoreTiming.Text

/-- Closed ranges of code points, each given by its first and its last member. -/
abbrev Ranges := List (Nat × Nat)

namespace Ranges

/-- Whether the code point of `c` lies in one of the ranges. -/
def holds (ranges : Ranges) (c : Char) : Bool :=
  ranges.any fun range => range.1 ≤ c.toNat && c.toNat ≤ range.2

theorem holds_iff {ranges : Ranges} {c : Char} :
    ranges.holds c = true ↔ ∃ range ∈ ranges, range.1 ≤ c.toNat ∧ c.toNat ≤ range.2 := by
  simp [holds, List.any_eq_true]

end Ranges

end CoreTiming.Text
