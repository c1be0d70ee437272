/-!
# Sets of characters

A set of characters is written as the list of its ranges of code points, both ends included. The
property tables of the other modules in this folder are such lists.
-/

namespace TwoWaySql.Text

/-- A set of code points, as ranges with both ends included. -/
abbrev CodeRanges := List (Nat × Nat)

def CodeRanges.contains (ranges : CodeRanges) (c : Char) : Bool :=
  ranges.any fun r => r.1 ≤ c.toNat && c.toNat ≤ r.2

theorem CodeRanges.contains_iff {ranges : CodeRanges} {c : Char} :
    ranges.contains c = true ↔ ∃ r ∈ ranges, r.1 ≤ c.toNat ∧ c.toNat ≤ r.2 := by
  simp [CodeRanges.contains]

end TwoWaySql.Text
