/-
**Binary digits.**

A truth value is written `1` or `0`.

* `digit_injective`: the digit tells the value;
* `ofDigits_cons`: a digit in front counts by the number of digits behind it;
* `ofDigits_lt`: the number with `n` binary digits is below `1 <<< n`.
-/

namespace Switching.Text

/-- The digit of a truth value. -/
def digit (value : Bool) : Char := if value then '1' else '0'

/-- The digits of a list of truth values, one after another. -/
def digits (values : List Bool) : String := String.ofList (values.map digit)

/-- The number with these binary digits, the first one the most significant. -/
def ofDigits (values : List Bool) : Nat :=
  values.foldl (fun number value => 2 * number + value.toNat) 0

theorem digit_injective {first second : Bool} (equal : digit first = digit second) :
    first = second := by
  cases first <;> cases second <;> simp_all [digit]

@[simp] theorem ofDigits_nil : ofDigits [] = 0 := rfl

/-- Reading digits behind a number shifts it by as many places. -/
theorem foldl_digits (number : Nat) (values : List Bool) :
    values.foldl (fun number value => 2 * number + value.toNat) number =
      number <<< values.length + ofDigits values := by
  induction values generalizing number with
  | nil => simp
  | cons value values ih =>
    simp only [ofDigits, List.foldl_cons, List.length_cons]
    rw [ih, ih (2 * 0 + value.toNat)]
    simp only [Nat.shiftLeft_eq, Nat.pow_succ, Nat.add_mul, Nat.mul_zero, Nat.zero_add]
    simp only [Nat.mul_comm, Nat.mul_assoc, Nat.add_assoc]

/-- The first digit counts as many times as the others can be chosen. -/
theorem ofDigits_cons (value : Bool) (values : List Bool) :
    ofDigits (value :: values) = value.toNat <<< values.length + ofDigits values := by
  have shifted := foldl_digits value.toNat values
  simpa [ofDigits] using shifted

theorem ofDigits_lt (values : List Bool) : ofDigits values < 1 <<< values.length := by
  induction values with
  | nil => simp
  | cons value values ih =>
    rw [ofDigits_cons, List.length_cons]
    rw [Nat.shiftLeft_eq] at ih ⊢
    cases value <;> simp [Nat.shiftLeft_eq, Nat.pow_succ] at ih ⊢ <;> omega

end Switching.Text
