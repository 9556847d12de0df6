/-
**Enumerating assignments.**

The assignments of distinct variables are numbered by their values, read as binary digits: the row
with a number is the assignment that has this number. So every assignment occurs in the enumeration
of its variables, once, at the place that its number says. There are no more than twenty-six
variables, so distinct ones are never too many: the enumeration of a list fails only where the list
repeats a variable, and a row number fits a machine word.

* `rowBits_ofDigits`: the digits of the number that values spell are these values;
* `assignmentAt_index`: the row with an assignment's number is this assignment;
* `toNat_indexWord`: the number of an assignment, computed in machine words;
* `Enumerates`: rows list all assignments of the variables;
* `enumerate_spec`: what is enumerated, and which lists are refused.
-/

import Switching.Proofs.Table.Rows

namespace Switching

/-! ### Numbers and values -/

/-- Below the digit in front, the digits of a number are those of the rest. -/
theorem rowBits_add (value : Nat) {lower width : Nat} (below : lower < 2 ^ width) :
    rowBits (2 ^ width * value + lower) width = rowBits lower width := by
  refine List.map_congr_left fun place member => ?_
  have inside := shift_lt (List.mem_range.mp member)
  rw [bit_eq_testBit_mod, Nat.testBit_two_pow_mul_add _ below, if_pos inside, bit_eq_testBit_mod]

/-- **The digits of the number that values spell** are these values. -/
theorem rowBits_ofDigits {values : List Bool} (fits : values.length ≤ wordWidth) :
    rowBits (Text.ofDigits values) values.length = values := by
  induction values with
  | nil => rfl
  | cons value values ih =>
    have below : Text.ofDigits values < 2 ^ values.length := by
      rw [← Nat.one_shiftLeft]
      exact Text.ofDigits_lt values
    have number : Text.ofDigits (value :: values) =
        2 ^ values.length * value.toNat + Text.ofDigits values := by
      rw [Text.ofDigits_cons, Nat.shiftLeft_eq, Nat.mul_comm]
    have digit : (Text.ofDigits (value :: values)).testBit values.length = value := by
      rw [number, Nat.testBit_two_pow_mul_add _ below, if_neg (Nat.lt_irrefl _), Nat.sub_self]
      cases value <;> rfl
    have front : bit (Text.ofDigits (value :: values)) (values.length + 1) 0 = value :=
      (bit_eq_testBit fits _ 0).trans digit
    rw [List.length_cons, rowBits_succ, front, number, rowBits_add _ below,
      ih (Nat.le_of_succ_le fits)]

theorem Assignment.length_values_le (a : Assignment) : a.values.length ≤ wordWidth := by
  rw [a.length_values]
  exact Nat.le_trans a.size_le (by decide)

/-- **The row with an assignment's number is this assignment.** -/
theorem assignmentAt_index (a : Assignment) : assignmentAt a.vars a.index = a := by
  have size : a.vars.length = a.values.length := by
    rw [a.length_vars, a.length_values]
  apply Assignment.ext
  rw [entries_assignmentAt a.nodup_vars, size, Assignment.index,
    rowBits_ofDigits a.length_values_le]
  exact (List.zip_of_prod rfl rfl).symm

/-! ### Machine words -/

/-- A digit behind the number in a machine word. -/
def pushDigit (number : UInt64) (value : Bool) : UInt64 := number <<< 1 ||| value.toUInt64

/-- The number of an assignment, computed in machine words. -/
def Assignment.indexWord (a : Assignment) : UInt64 := a.values.foldl pushDigit 0

/-- The word has room for one more digit. -/
theorem toNat_pushDigit {number : UInt64} (room : (number.toNat + 1) * 2 ≤ 2 ^ 64) (value : Bool) :
    (pushDigit number value).toNat = 2 * number.toNat + value.toNat := by
  have shifted : (number <<< 1).toNat = 2 ^ 1 * number.toNat := by
    have one : (1 : UInt64).toNat % 64 = 1 := rfl
    rw [UInt64.toNat_shiftLeft, one, Nat.shiftLeft_eq, Nat.mul_comm, Nat.mod_eq_of_lt]
    omega
  have digit : value.toUInt64.toNat = value.toNat := by cases value <;> rfl
  rw [pushDigit, UInt64.toNat_or, shifted, digit,
    ← Nat.two_pow_add_eq_or_of_lt (Bool.toNat_lt value), Nat.pow_one]

/-- Digits behind the number in a machine word are those behind the number itself, as long as there
is room for all of them. -/
theorem toNat_foldl_pushDigit {number : UInt64} {values : List Bool}
    (room : (number.toNat + 1) * 2 ^ values.length ≤ 2 ^ 64) :
    (values.foldl pushDigit number).toNat =
      values.foldl (fun number value => 2 * number + value.toNat) number.toNat := by
  induction values generalizing number with
  | nil => rfl
  | cons value values ih =>
    rw [List.length_cons, Nat.pow_succ', ← Nat.mul_assoc] at room
    have first : (number.toNat + 1) * 2 ≤ 2 ^ 64 :=
      Nat.le_trans (Nat.le_mul_of_pos_right _ (Nat.two_pow_pos _)) room
    have pushed := toNat_pushDigit first value
    have more : (pushDigit number value).toNat + 1 ≤ (number.toNat + 1) * 2 := by
      have digit := Bool.toNat_lt value
      omega
    rw [List.foldl_cons, List.foldl_cons, ih (Nat.le_trans (Nat.mul_le_mul_right _ more) room),
      pushed]

/-- **The number of an assignment fits a machine word**, and no digit is lost while it is computed,
because there are not more digits than letters. -/
theorem Assignment.toNat_indexWord (a : Assignment) : a.indexWord.toNat = a.index := by
  refine toNat_foldl_pushDigit ?_
  rw [a.length_values]
  calc ((0 : UInt64).toNat + 1) * 2 ^ a.size = 2 ^ a.size := Nat.one_mul _
    _ ≤ 2 ^ 26 := Nat.pow_le_pow_right (by decide) a.size_le
    _ ≤ 2 ^ 64 := by decide

/-! ### Enumerations -/

/-- **The rows list all assignments of the variables**: the one with each number at its place, and
every one of them once. -/
structure Enumerates (rows : List Assignment) (vars : List Variable) : Prop where
  length : rows.length = 2 ^ vars.length
  row : ∀ i < 2 ^ vars.length, ∃ a, rows[i]? = some a ∧ a.vars = vars ∧
    (∀ k v, vars[k]? = some v → a.get? v = some (i.testBit (vars.length - 1 - k))) ∧ a.index = i
  once : ∀ a : Assignment, a.vars = vars → rows.count a = 1

/-- The rows of distinct variables. -/
def rowsOf (vars : List Variable) : List Assignment :=
  (List.range (1 <<< vars.length)).map (assignmentAt vars)

theorem getElem?_rowsOf {vars : List Variable} {i : Nat} (inside : i < 2 ^ vars.length) :
    (rowsOf vars)[i]? = some (assignmentAt vars i) := by
  rw [← Nat.one_shiftLeft] at inside
  rw [rowsOf, List.getElem?_map, List.getElem?_range inside]
  rfl

theorem index_assignmentAt_of_lt {vars : List Variable} (distinct : vars.Nodup) {i : Nat}
    (inside : i < 2 ^ vars.length) : (assignmentAt vars i).index = i := by
  rw [index_assignmentAt distinct, Nat.mod_eq_of_lt inside]

/-- Rows with different numbers are different. -/
theorem nodup_rowsOf {vars : List Variable} (distinct : vars.Nodup) : (rowsOf vars).Nodup := by
  refine List.Nodup.of_map Assignment.index ?_
  have numbers : (rowsOf vars).map Assignment.index = List.range (1 <<< vars.length) := by
    rw [rowsOf, List.map_map, List.map_congr_left (g := id), List.map_id]
    intro i member
    have inside := List.mem_range.mp member
    rw [Nat.one_shiftLeft] at inside
    exact index_assignmentAt_of_lt distinct inside
  rw [numbers]
  exact List.nodup_range

/-- **An assignment stands in the row with its number.** -/
theorem getElem?_rowsOf_index (a : Assignment) : (rowsOf a.vars)[a.index]? = some a := by
  have below := a.index_lt
  rw [Nat.one_shiftLeft, ← a.length_vars] at below
  rw [getElem?_rowsOf below, assignmentAt_index]

theorem enumerates_rowsOf {vars : List Variable} (distinct : vars.Nodup) :
    Enumerates (rowsOf vars) vars where
  length := by rw [rowsOf, List.length_map, List.length_range, Nat.one_shiftLeft]
  row i inside := ⟨assignmentAt vars i, getElem?_rowsOf inside, vars_assignmentAt distinct i,
    fun _ _ here => get?_assignmentAt_eq_testBit distinct i here,
    index_assignmentAt_of_lt distinct inside⟩
  once := by
    rintro a rfl
    exact List.count_eq_one_of_mem (nodup_rowsOf distinct)
      (List.mem_of_getElem? (getElem?_rowsOf_index a))

/-- Distinct variables are never too many. -/
theorem enumerate_of_nodup {vars : List Variable} (distinct : vars.Nodup) :
    enumerate vars = .ok (rowsOf vars) := by
  have few : vars.length < wordWidth := Nat.lt_of_le_of_lt (length_le_of_nodup distinct) (by decide)
  exact enumerate_eq_ok_iff.mpr ⟨few, distinct, rfl⟩

/-- **Enumerating and numbering are inverse to each other.** Distinct variables are enumerated: there
is a row for every number with as many digits, whose assignment binds each variable to the digit at
its place and has this number, and every assignment of the variables in this order occurs once. An
assignment of any variables is the one in the row that its number says; the number has no more digits
than it has variables, of which there are at most twenty-six, so that it fits a machine word. Exactly
the lists that repeat a variable are refused. -/
theorem enumerate_spec :
    (∀ vars, vars.Nodup → ∃ rows, enumerate vars = .ok rows ∧ Enumerates rows vars) ∧
    (∀ a : Assignment, a.size ≤ 26 ∧ a.index < 2 ^ a.size ∧ a.indexWord.toNat = a.index ∧
      ∃ rows, enumerate a.vars = .ok rows ∧ rows[a.index]? = some a) ∧
    ∀ vars, (∃ misuse, enumerate vars = .error misuse) ↔ ¬ vars.Nodup := by
  refine ⟨fun vars distinct => ?_, fun a => ⟨a.size_le, ?_, a.toNat_indexWord, ?_⟩, fun vars => ?_⟩
  · exact ⟨rowsOf vars, enumerate_of_nodup distinct, enumerates_rowsOf distinct⟩
  · rw [← Nat.one_shiftLeft]
    exact a.index_lt
  · exact ⟨rowsOf a.vars, enumerate_of_nodup a.nodup_vars, getElem?_rowsOf_index a⟩
  · constructor
    · rintro ⟨misuse, refused⟩ distinct
      cases (enumerate_of_nodup distinct).symm.trans refused
    · intro repeated
      cases answer : enumerate vars with
      | error misuse => exact ⟨misuse, rfl⟩
      | ok rows => exact absurd (enumerate_eq_ok_iff.mp answer).2.1 repeated

/-- Two variables give four rows; the third one binds the first variable, and is where the assignment
of these values stands. -/
theorem enumerate_b_a :
    let vars : List Variable := [⟨'b', by decide⟩, ⟨'a', by decide⟩]
    let a : Assignment := (Assignment.empty.insert ⟨'b', by decide⟩ true).insert ⟨'a', by decide⟩ false
    vars.Nodup ∧ ∃ rows, enumerate vars = .ok rows ∧ rows.length = 4 ∧ rows[2]? = some a := by
  intro vars a
  have distinct : vars.Nodup := by decide
  obtain ⟨enumerates, numbered, _⟩ := enumerate_spec
  obtain ⟨rows, answer, listed⟩ := enumerates vars distinct
  obtain ⟨_, _, _, rows', answer', here⟩ := numbered a
  have vars_a : a.vars = vars := by decide
  rw [vars_a] at answer'
  cases answer.symm.trans answer'
  exact ⟨distinct, rows, answer, listed.length, here⟩

end Switching
