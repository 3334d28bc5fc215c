/-!
# Ranges of characters

A property of characters is written down as a table of ranges of code points, both ends
included and in ascending order. `inRanges` looks a character up.
-/

namespace CommandScript.Unicode

/-- Whether the code point of `c` lies in one of the ranges of `table`. -/
def inRanges (table : List (Nat × Nat)) (c : Char) : Bool :=
  table.any fun r => decide (r.1 ≤ c.toNat) && decide (c.toNat ≤ r.2)

theorem inRanges_iff {table : List (Nat × Nat)} {c : Char} :
    inRanges table c = true ↔ ∃ r ∈ table, r.1 ≤ c.toNat ∧ c.toNat ≤ r.2 := by
  simp [inRanges]

end CommandScript.Unicode
