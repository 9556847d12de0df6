/-
**Variables.**

A variable is named by one small ASCII letter; a capital names the same variable.

* `ofChar_name`: a variable is read back from its name;
* `ofChar_eq_error_iff`: exactly the characters that are no letters are refused;
* `toNat_name_bounds`: names lie between `a` and `z`.
-/

import Switching.Misuse

namespace Switching

/-- A variable. -/
structure Variable where
  name : Char
  small : name.isLower = true
deriving DecidableEq

namespace Variable

/-- The variable that a letter of either case names. -/
def ofLetter (c : Char) (letter : c.isAlpha = true) : Variable :=
  ⟨c.toLower, Text.isLower_toLower letter⟩

/-- The variable that a character names. -/
def ofChar (c : Char) : Except Misuse Variable :=
  if letter : c.isAlpha = true then .ok (ofLetter c letter) else .error (.notLetter c)

/-- The variable as a text of one letter. -/
def text (v : Variable) : String := String.ofList [v.name]

theorem isAlpha_name (v : Variable) : v.name.isAlpha = true := by
  show (v.name.isUpper || v.name.isLower) = true
  rw [v.small, Bool.or_true]

theorem toNat_name_bounds (v : Variable) : 97 ≤ v.name.toNat ∧ v.name.toNat ≤ 122 :=
  Text.isLower_iff.mp v.small

/-- A name is its own lower-case form. -/
theorem toLower_name (v : Variable) : v.name.toLower = v.name := by
  apply Text.toLower_eq_self
  have bounds := v.toNat_name_bounds
  rw [← Bool.not_eq_true, Text.isUpper_iff]
  omega

@[simp] theorem ofLetter_name (v : Variable) (letter : v.name.isAlpha = true) :
    ofLetter v.name letter = v := by
  have same := v.toLower_name
  cases v
  simpa [ofLetter] using same

@[simp] theorem ofChar_name (v : Variable) : ofChar v.name = .ok v := by
  simp [ofChar, v.isAlpha_name]

/-- Exactly the characters that are no letters are refused. -/
theorem ofChar_eq_error_iff {c : Char} {misuse : Misuse} :
    ofChar c = .error misuse ↔ c.isAlpha = false ∧ misuse = .notLetter c := by
  by_cases letter : c.isAlpha = true
  · simp [ofChar, letter]
  · simp only [ofChar, letter, Bool.false_eq_true, dite_false, Except.error.injEq, true_and]
    exact eq_comm

end Variable

end Switching
