/-
**Rows by their numbers.**

Row `i` over distinct variables binds each of them once, in their order, to the binary digits of `i`.
So a row's number is the number that its values spell. Distinct variables are no more than there are
letters, hence fewer than the digits of a word: no shift overflows.

* `ofDigits_rowBits`: the digits of a row spell its number, as far as they reach;
* `bit_mod_two_pow`: only these digits of a number count;
* `entries_ofList`: bindings of distinct variables are kept as they are;
* `length_le_of_nodup`: there are at most twenty-six distinct variables;
* `vars_assignmentAt`, `get?_assignmentAt`, `index_assignmentAt`: the assignment of a row.
-/

import Mathlib.Data.List.Nodup
import Switching.Proofs.Distinct
import Switching.Row

namespace Switching

/-! ### Bindings of distinct variables -/

namespace Bindings

variable {v : Variable} {value : Bool} {entries : Bindings}

theorem insert_of_not_mem (new : v ∉ vars entries) :
    insert v value entries = entries ++ [(v, value)] := by
  induction entries with
  | nil => rfl
  | cons entry rest ih =>
    obtain ⟨w, old⟩ := entry
    obtain ⟨other, later⟩ := List.ne_and_not_mem_of_not_mem_cons new
    rw [insert, if_neg (Ne.symm other), ih later]
    rfl

/-- Where no variable is bound twice, every binding counts. -/
theorem get?_of_mem (distinct : (vars entries).Nodup) (member : (v, value) ∈ entries) :
    get? v entries = some value := by
  induction entries with
  | nil => cases member
  | cons entry rest ih =>
    obtain ⟨w, old⟩ := entry
    obtain ⟨new, distinct⟩ := List.nodup_cons.mp distinct
    rcases List.mem_cons.mp member with here | later
    · cases here
      exact if_pos rfl
    · have other : v ≠ w := by
        rintro rfl
        exact new (List.mem_map.mpr ⟨_, later, rfl⟩)
      rw [get?, if_neg other]
      exact ih distinct later

end Bindings

/-- **Bindings of distinct variables are kept as they are.** -/
theorem Assignment.entries_ofList {bindings : Bindings} (distinct : bindings.vars.Nodup) :
    (ofList bindings).entries = bindings := by
  induction bindings using List.reverseRecOn with
  | nil => rfl
  | append_singleton before last ih =>
    obtain ⟨v, value⟩ := last
    rw [Bindings.vars, List.map_append] at distinct
    obtain ⟨first, _, apart⟩ := List.nodup_append.mp distinct
    have kept := ih first
    have new : v ∉ Bindings.vars before := by
      intro member
      exact apart v member v (List.mem_singleton.mpr rfl) rfl
    rw [ofList_append_singleton]
    show Bindings.insert v value (ofList before).entries = _
    rw [kept, Bindings.insert_of_not_mem new]

/-! ### Digits of a row -/

theorem getElem?_rowBits {index width place : Nat} (inside : place < width) :
    (rowBits index width)[place]? = some (bit index width place) := by
  rw [rowBits, List.getElem?_map, List.getElem?_range inside]
  rfl

/-- One more variable puts one more value in front. -/
theorem rowBits_succ (index width : Nat) :
    rowBits index (width + 1) = bit index (width + 1) 0 :: rowBits index width := by
  unfold rowBits
  rw [List.range_succ_eq_map, List.map_cons, List.map_map]
  congr 1
  refine List.map_congr_left fun place _ => ?_
  have amount : width + 1 - 1 - (place + 1) = width - 1 - place := by omega
  show bit index (width + 1) (place + 1) = bit index width place
  rw [bit, bit, amount]

/-- **The digits of a row spell its number**, as far as they reach. -/
theorem ofDigits_rowBits (index : Nat) {width : Nat} (fits : width ≤ wordWidth) :
    Text.ofDigits (rowBits index width) = index % 2 ^ width := by
  induction width with
  | zero => exact (Nat.mod_one index).symm
  | succ width ih =>
    have front : bit index (width + 1) 0 = index.testBit width := bit_eq_testBit fits index 0
    rw [rowBits_succ, front, Text.ofDigits_cons, length_rowBits, ih (Nat.le_of_succ_le fits),
      Nat.mod_pow_succ, Nat.toNat_testBit, Nat.shiftLeft_eq, Nat.mul_comm, Nat.add_comm]

/-- The amounts of shifts are below the number of variables, however many these are. -/
theorem shift_lt {width place : Nat} (inside : place < width) :
    (width - 1 - place) % wordWidth < width := by
  have amount : width - 1 - place < width := by omega
  exact Nat.lt_of_le_of_lt (Nat.mod_le ..) amount

/-- **Digits of a number beyond the first `width` do not count.** -/
theorem bit_mod_two_pow (index : Nat) {width place : Nat} (inside : place < width) :
    bit (index % 2 ^ width) width place = bit index width place := by
  rw [bit_eq_testBit_mod, bit_eq_testBit_mod, Nat.testBit_mod_two_pow,
    decide_eq_true (shift_lt inside), Bool.true_and]

/-! ### Twenty-six letters -/

/-- **There are at most twenty-six distinct variables.** -/
theorem length_le_of_nodup {vars : List Variable} (distinct : vars.Nodup) : vars.length ≤ 26 := by
  have apart : (vars.map fun v => v.name.toNat).Nodup := by
    refine distinct.map fun first second same => ?_
    cases first
    cases second
    simpa [Char.toNat_inj] using same
  have letters : (vars.map fun v => v.name.toNat) ⊆ List.range' 97 26 := by
    intro code member
    obtain ⟨v, _, rfl⟩ := List.mem_map.mp member
    have bounds := v.toNat_name_bounds
    rw [List.mem_range'_1]
    omega
  simpa using apart.length_le_of_subset letters

/-- Distinct variables are no more than a word has digits. -/
theorem length_le_wordWidth {vars : List Variable} (distinct : vars.Nodup) :
    vars.length ≤ wordWidth :=
  Nat.le_trans (length_le_of_nodup distinct) (by decide)

theorem Assignment.size_le (a : Assignment) : a.size ≤ 26 := by
  rw [← a.length_vars]
  exact length_le_of_nodup a.nodup_vars

/-! ### The assignment of a row -/

theorem vars_zip_rowBits (vars : List Variable) (index : Nat) :
    Bindings.vars (vars.zip (rowBits index vars.length)) = vars :=
  List.map_fst_zip (Nat.le_of_eq (length_rowBits ..).symm)

section Distinct

variable {vars : List Variable} (distinct : vars.Nodup)

include distinct

theorem entries_assignmentAt (index : Nat) :
    (assignmentAt vars index).entries = vars.zip (rowBits index vars.length) := by
  refine Assignment.entries_ofList ?_
  rwa [vars_zip_rowBits]

theorem vars_assignmentAt (index : Nat) : (assignmentAt vars index).vars = vars := by
  rw [Assignment.vars, entries_assignmentAt distinct, vars_zip_rowBits]

/-- **A row binds each variable to the value at its place.** -/
theorem get?_assignmentAt (index : Nat) {place : Nat} {v : Variable}
    (here : vars[place]? = some v) :
    (assignmentAt vars index).get? v = some (bit index vars.length place) := by
  have inside := (List.getElem?_eq_some_iff.mp here).1
  refine Bindings.get?_of_mem (assignmentAt vars index).distinct ?_
  rw [entries_assignmentAt distinct]
  exact List.mem_of_getElem? (List.getElem?_zip_eq_some.mpr ⟨here, getElem?_rowBits inside⟩)

/-- **The value at its place is a digit** of the row's number. -/
theorem get?_assignmentAt_eq_testBit (index : Nat) {place : Nat} {v : Variable}
    (here : vars[place]? = some v) :
    (assignmentAt vars index).get? v = some (index.testBit (vars.length - 1 - place)) := by
  rw [get?_assignmentAt distinct index here, bit_eq_testBit (length_le_wordWidth distinct)]

/-- **The number that a row's values spell** is the row's number, as far as they reach. -/
theorem index_assignmentAt (index : Nat) :
    (assignmentAt vars index).index = index % 2 ^ vars.length := by
  rw [Assignment.index, Assignment.values, entries_assignmentAt distinct,
    List.map_snd_zip (Nat.le_of_eq (length_rowBits ..)),
    ofDigits_rowBits index (length_le_wordWidth distinct)]

end Distinct

end Switching
