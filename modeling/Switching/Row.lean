/-
**Rows.**

Row `i` of a table over `n` variables binds the variable at place `k` to the binary digit of `i` of
weight `2 ^ (n - 1 - k)`: the first variable changes slowest, and two variables give the rows `00`,
`01`, `10`, `11`. Row numbers are machine words, whose digits are read by shifting them to the right,
and nothing asks for lists that are no longer than a word. Over longer ones the shift overflows.

* `toNat_shiftRight`: the shift is that of machine words;
* `bit_eq_testBit`: over as many variables as a word has digits, rows are made of digits;
* `length_rowBits`: a row has one value for each variable;
* `enumerate_eq_ok_iff`: exactly the short lists without a repeated variable are enumerated, and
  the rows come in the order of their numbers.
-/

import Switching.Assignment

namespace Switching

/-- The most variables, or circuit inputs, that a table is built for. -/
def widestTable : Nat := 20

/-- Row numbers have this many binary digits. -/
def wordWidth : Nat := 64

/-- A machine word shifted to the right. By its own width or more a word cannot be shifted: where this
overflow goes unchecked, as it does here, the amount is taken modulo the width. -/
def shiftRight (word amount : Nat) : Nat := word >>> (amount % wordWidth)

/-- The value at place `place` in row `index` of a table over `width` variables, where
`place < width`. -/
def bit (index width place : Nat) : Bool := (shiftRight index (width - 1 - place)).testBit 0

/-- The values of row `index` of a table over `width` variables. -/
def rowBits (index width : Nat) : List Bool := (List.range width).map (bit index width)

/-- The assignment of row `index` over a list of variables. A variable that the list repeats takes
the value of its last place. -/
def assignmentAt (vars : List Variable) (index : Nat) : Assignment :=
  Assignment.ofList (vars.zip (rowBits index vars.length))

/-- All assignments of distinct variables in row order. The number of rows has to fit a word. -/
def enumerate (vars : List Variable) : Except Misuse (List Assignment) :=
  if wordWidth ≤ vars.length then .error (.tooManyToEnumerate vars.length)
  else if vars.Nodup then .ok ((List.range (1 <<< vars.length)).map (assignmentAt vars))
  else .error .repeatedVariable

/-! ### Laws -/

/-- The shift is that of machine words. -/
theorem toNat_shiftRight (word amount : UInt64) :
    (word >>> amount).toNat = shiftRight word.toNat amount.toNat :=
  UInt64.toNat_shiftRight ..

/-- The last digit behind a shift. -/
theorem bit_eq_testBit_mod (index width place : Nat) :
    bit index width place = index.testBit ((width - 1 - place) % wordWidth) := by
  rw [bit, shiftRight, Nat.testBit_shiftRight, Nat.add_zero]

/-- **Rows are made of digits** over as many variables as a word has digits. -/
theorem bit_eq_testBit {width : Nat} (fits : width ≤ wordWidth) (index place : Nat) :
    bit index width place = index.testBit (width - 1 - place) := by
  have below : width - 1 - place < wordWidth := by
    unfold wordWidth at fits ⊢
    omega
  rw [bit_eq_testBit_mod, Nat.mod_eq_of_lt below]

@[simp] theorem length_rowBits (index width : Nat) : (rowBits index width).length = width := by
  simp [rowBits]

/-- Exactly the short lists without a repeated variable are enumerated. -/
theorem enumerate_eq_ok_iff {vars : List Variable} {rows : List Assignment} :
    enumerate vars = .ok rows ↔
      vars.length < wordWidth ∧ vars.Nodup ∧
        (List.range (1 <<< vars.length)).map (assignmentAt vars) = rows := by
  unfold enumerate
  by_cases long : wordWidth ≤ vars.length
  · simp [long, Nat.not_lt.mpr long]
  · by_cases distinct : vars.Nodup <;> simp [long, distinct, Nat.lt_of_not_le long]

end Switching
