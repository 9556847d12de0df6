/-
**Ranges of code points.**

A character class is written as a list of inclusive ranges.

* `contains_iff`: a range contains a character when its code point lies between the two ends;
* `covers_iff`: a list of ranges covers a character when one of them contains it.
-/

namespace Switching.Text

/-- The code points from `first` to `last`, both included. -/
structure CodeRange where
  first : Nat
  last : Nat

/-- Whether a character lies in the range. -/
def CodeRange.contains (range : CodeRange) (c : Char) : Bool :=
  range.first ≤ c.toNat && c.toNat ≤ range.last

/-- Whether a character lies in one of the ranges. -/
def covers (ranges : List CodeRange) (c : Char) : Bool :=
  ranges.any (·.contains c)

theorem CodeRange.contains_iff {range : CodeRange} {c : Char} :
    range.contains c = true ↔ range.first ≤ c.toNat ∧ c.toNat ≤ range.last := by
  simp [CodeRange.contains]

theorem covers_iff {ranges : List CodeRange} {c : Char} :
    covers ranges c = true ↔ ∃ range ∈ ranges, range.first ≤ c.toNat ∧ c.toNat ≤ range.last := by
  simp [covers, CodeRange.contains_iff]

end Switching.Text
