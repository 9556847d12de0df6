/-
**The order of rows.**

A table over distinct variables has the row of each number at its place. Nothing asks for distinct
variables, though, and over a list that repeats one there are more rows than assignments: the rows go
on with the digits of all places, while an assignment has a digit for each variable only. So the last
number is the number of no row, and some assignment stands in two of them.

* `length_eraseDups_lt`: a list that repeats an item is longer than the list of its items;
* `index_assignmentAt_lt`: over a list that repeats a variable no row has a number in the upper half;
* `rows_in_order_iff`: the rows stand in the order of their numbers exactly if no variable is
  repeated, and neither is an assignment then.
-/

import Mathlib.Data.List.Perm.Subperm
import Switching.Proofs.Table.Insertion
import Switching.TruthTable

namespace Switching

/-! ### Lists that repeat a variable -/

/-- A list that repeats an item is longer than the list of its items. -/
theorem length_eraseDups_lt {α : Type} [DecidableEq α] {items : List α} (repeated : ¬ items.Nodup) :
    items.eraseDups.length < items.length := by
  by_contra long
  have part : items.eraseDups.Subperm items :=
    (nodup_eraseDups items).subperm fun _ member => List.mem_eraseDups.mp member
  have whole := part.perm_of_length_le (Nat.le_of_not_lt long)
  exact repeated (whole.nodup_iff.mp (nodup_eraseDups items))

section Repeated

variable {vars : List Variable} (repeated : ¬ vars.Nodup)

include repeated

/-- **No row has a number in the upper half**: one digit at least is not there. -/
theorem index_assignmentAt_lt (index : Nat) :
    (assignmentAt vars index).index < 2 ^ (vars.length - 1) := by
  have below := (assignmentAt vars index).index_lt
  rw [Nat.one_shiftLeft, ← Assignment.length_vars, vars_assignmentAt_eq] at below
  have fewer := length_eraseDups_lt repeated
  exact Nat.lt_of_lt_of_le below (Nat.pow_le_pow_right Nat.two_pos (by omega))

/-- There are more rows than numbers in the lower half. -/
theorem lower_half_lt : 2 ^ (vars.length - 1) < 2 ^ vars.length := by
  have fewer := length_eraseDups_lt repeated
  exact Nat.pow_lt_pow_right (by decide) (by omega)

/-- **Some assignment stands in two rows.** The numbers tell the assignments apart, as all of them have
the same variables, and there are not enough numbers. -/
theorem not_nodup_rowsOf : ¬ (rowsOf vars).Nodup := by
  intro distinct
  have numbers : ((rowsOf vars).map Assignment.index).Nodup := by
    refine distinct.map_on fun first one second two same => ?_
    obtain ⟨i, _, rfl⟩ := List.mem_map.mp one
    obtain ⟨j, _, rfl⟩ := List.mem_map.mp two
    rw [← assignmentAt_index (assignmentAt vars i), ← assignmentAt_index (assignmentAt vars j), same,
      vars_assignmentAt_eq, vars_assignmentAt_eq]
  have lower : (rowsOf vars).map Assignment.index ⊆ List.range (2 ^ (vars.length - 1)) := by
    intro number member
    obtain ⟨a, listed, rfl⟩ := List.mem_map.mp member
    obtain ⟨i, _, rfl⟩ := List.mem_map.mp listed
    exact List.mem_range.mpr (index_assignmentAt_lt repeated i)
  have few := numbers.length_le_of_subset lower
  rw [List.length_map, rowsOf, List.length_map, List.length_range, List.length_range,
    Nat.one_shiftLeft] at few
  exact absurd (lower_half_lt repeated) (Nat.not_lt.mpr few)

end Repeated

/-! ### Tables -/

namespace TruthTable

variable (vars : List Variable) (f : Nat → Assignment → Bool)

theorem assignments_tabulate :
    (tabulate vars f).rows.map TableRow.assignment = rowsOf vars := by
  rw [tabulate, rowsOf, List.map_map]
  rfl

/-- **The rows stand in the order of their numbers exactly if no variable is repeated**, and exactly
then no assignment is. Their count is that of the numbers with as many digits in any case. -/
theorem rows_in_order_iff :
    (tabulate vars f).rows.length = 2 ^ vars.length ∧
    ((∀ i < 2 ^ vars.length, ∃ row, (tabulate vars f).rows[i]? = some row ∧
      row.assignment.index = i) ↔ vars.Nodup) ∧
    (((tabulate vars f).rows.map TableRow.assignment).Nodup ↔ vars.Nodup) := by
  refine ⟨?_, ⟨fun ordered => ?_, fun distinct i inside => ?_⟩, ?_⟩
  · rw [length_rows_tabulate, Nat.one_shiftLeft]
  · by_contra repeated
    have inside := lower_half_lt repeated
    obtain ⟨row, here, number⟩ := ordered _ inside
    rw [getElem?_rows_tabulate vars f (by rwa [Nat.one_shiftLeft])] at here
    cases here
    exact absurd number (Nat.ne_of_lt (index_assignmentAt_lt repeated _))
  · exact ⟨_, getElem?_rows_tabulate vars f (by rwa [Nat.one_shiftLeft]),
      index_assignmentAt_of_lt distinct inside⟩
  · rw [assignments_tabulate]
    exact ⟨fun apart => by_contra fun repeated => not_nodup_rowsOf repeated apart, nodup_rowsOf⟩

/-- Over a list that has one variable twice, the third row has the number of the first one, and its
assignment. -/
theorem rows_a_a :
    let a : Variable := ⟨'a', by decide⟩
    let table := tabulate [a, a] fun index _ => [false, true, true, false].getD index false
    [a, a].length < 64 ∧ table.rows.length = 2 ^ [a, a].length ∧ 2 < 2 ^ [a, a].length ∧
      ∃ first third, table.rows[0]? = some first ∧ table.rows[2]? = some third ∧
        third.assignment.index = 0 ∧ third.assignment = first.assignment := by
  refine ⟨by decide, by decide, by decide, _, _, rfl, rfl, by decide, by decide⟩

end TruthTable

end Switching
