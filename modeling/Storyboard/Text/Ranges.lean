/-!
# Storyboard.Text.Ranges

A set of characters given as a table of code point ranges, ends included.  The
tables of this library (blank characters, digits, unprintable characters) are all
read through `Ranges.contains`.
-/

namespace Storyboard.Text

/-- Pairs of a first and a last code point. -/
abbrev Ranges := List (Nat × Nat)

namespace Ranges

/-- Whether some range holds the character. -/
def contains (rs : Ranges) (c : Char) : Bool :=
  rs.any fun r => decide (r.1 ≤ c.toNat) && decide (c.toNat ≤ r.2)

theorem contains_iff {rs : Ranges} {c : Char} :
    rs.contains c = true ↔ ∃ r ∈ rs, r.1 ≤ c.toNat ∧ c.toNat ≤ r.2 := by
  simp [contains]

end Ranges

end Storyboard.Text
