/-
**Classes of characters given by ranges.**

A class of characters is written down as a list of closed ranges of code points.

Main definitions:

* `Citations.Text.inRanges` — membership in such a list.

Main results:

* `Citations.Text.inRanges_iff` — a code point belongs to the class exactly when one of the ranges
  holds it.
-/

set_option relaxedAutoImplicit false
set_option autoImplicit false

namespace Citations.Text

/-- Whether one of the closed ranges holds the code point. -/
def inRanges (ranges : List (Nat × Nat)) (n : Nat) : Bool :=
  ranges.any fun r => r.1 ≤ n && n ≤ r.2

theorem inRanges_iff (ranges : List (Nat × Nat)) (n : Nat) :
    inRanges ranges n = true ↔ ∃ r ∈ ranges, r.1 ≤ n ∧ n ≤ r.2 := by
  simp [inRanges]

end Citations.Text
