/-
**Letters.**

The ASCII letters by their code points. Variables are named by them.

* `isLower_iff`, `isUpper_iff`, `isAlpha_iff`: the small letters, the capitals and the letters are
  intervals of code points;
* `isLower_toLower`: the lower-case form of a letter is a small letter.
-/

namespace Switching.Text

theorem isLower_iff {c : Char} : c.isLower = true ↔ 97 ≤ c.toNat ∧ c.toNat ≤ 122 := by
  delta Char.isLower
  simp [UInt32.le_iff_toNat_le, ← Char.toNat_val]

theorem isUpper_iff {c : Char} : c.isUpper = true ↔ 65 ≤ c.toNat ∧ c.toNat ≤ 90 := by
  delta Char.isUpper
  simp [UInt32.le_iff_toNat_le, ← Char.toNat_val]

theorem isAlpha_iff {c : Char} :
    c.isAlpha = true ↔ (65 ≤ c.toNat ∧ c.toNat ≤ 90) ∨ (97 ≤ c.toNat ∧ c.toNat ≤ 122) := by
  show (c.isUpper || c.isLower) = true ↔ _
  simp [isLower_iff, isUpper_iff]

/-- A character that is no capital is its own lower-case form. -/
theorem toLower_eq_self {c : Char} (small : c.isUpper = false) : c.toLower = c := by
  unfold Char.toLower
  split
  · rename_i upper
    delta Char.isUpper at small
    simp at small
    exact absurd (small upper.1) (UInt32.not_lt.mpr upper.2)
  · rfl

theorem isLower_toLower {c : Char} (letter : c.isAlpha = true) : c.toLower.isLower = true := by
  by_cases capital : c.isUpper = true
  · have upper := of_decide_eq_true capital
    unfold Char.toLower
    rw [dif_pos upper]
    have bounds := isUpper_iff.mp capital
    simp [isLower_iff, ← Char.toNat_val, UInt32.toNat_add] at bounds ⊢
    omega
  · rw [Bool.not_eq_true] at capital
    rw [toLower_eq_self capital]
    replace letter : (c.isUpper || c.isLower) = true := letter
    rw [capital, Bool.false_or] at letter
    exact letter

end Switching.Text
