/-
**Binary connectives.**

The three binary connectives of expressions, how tightly they bind, and what they mean.

* `strength_injective`: different connectives bind with different strength;
* `apply_and`, `apply_or`, `apply_xor`: when the value of each connective is true.
-/

namespace Switching

/-- A binary connective. -/
inductive Connective where
  | and
  | or
  | xor
deriving DecidableEq

namespace Connective

/-- How tightly a connective binds; the loosest has strength one. -/
def strength : Connective → Nat
  | or => 1
  | and => 2
  | xor => 3

/-- The truth function. -/
def apply : Connective → Bool → Bool → Bool
  | and, a, b => a && b
  | or, a, b => a || b
  | xor, a, b => a != b

/-- The connective as a word or sign of the input language. -/
def text : Connective → String
  | and => "and"
  | or => "or"
  | xor => "^"

theorem strength_injective {first second : Connective}
    (equal : first.strength = second.strength) : first = second := by
  cases first <;> cases second <;> simp_all [strength]

/-! ### What the connectives compute -/

variable {first second : Bool}

/-- A conjunction is true if both operands are. -/
@[simp] theorem apply_and : and.apply first second = true ↔ first = true ∧ second = true :=
  Bool.and_eq_true_iff

/-- A disjunction is true if one operand is, or both are. -/
@[simp] theorem apply_or : or.apply first second = true ↔ first = true ∨ second = true :=
  Bool.or_eq_true_iff

/-- An exclusive disjunction is true if the operands differ. -/
@[simp] theorem apply_xor : xor.apply first second = true ↔ first ≠ second :=
  bne_iff_ne

end Connective

end Switching
