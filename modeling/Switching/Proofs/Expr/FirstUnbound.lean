/-
**Unbound variables.**

Evaluation goes through an expression from left to right and looks at every variable, whatever the
values so far. So it stops exactly if some variable is not bound, at the first such one; and as the
list of the variables has them in the order of their first occurrence, this is the first one of that
list which is not bound. Apart from the values of these variables nothing of an assignment matters.

* `collect_eq_vars`: the variables, gathered leaf after leaf;
* `value_eq`: the value, or the first variable that is not bound;
* `value_congr`: the value depends on the variables only;
* `value_spec`: when an expression has a value, and which variable is named if it has none.
-/

import Switching.Expr.Value
import Switching.Proofs.Distinct

namespace Switching

namespace Expr

variable {e : Expr} {a b : Assignment}

/-! ### Gathering the variables -/

/-- The variables behind those that were seen before, in order of first occurrence. -/
def collect (seen : List Variable) : Expr → List Variable
  | const _ => seen
  | var v => addNew seen v
  | not e => e.collect seen
  | binary _ l r => r.collect (l.collect seen)

theorem collect_eq_foldl (seen : List Variable) (e : Expr) :
    e.collect seen = e.occurrences.foldl addNew seen := by
  induction e generalizing seen with
  | const _ => rfl
  | var v => rfl
  | not e ih => exact ih seen
  | binary _ l r left right => rw [collect, left, right, occurrences, List.foldl_append]

/-- **The variables are gathered leaf after leaf.** -/
theorem collect_eq_vars (e : Expr) : e.collect [] = e.vars := by
  rw [collect_eq_foldl, foldl_addNew_nil, vars]

/-! ### Evaluation -/

/-- The first variable from the left that an assignment does not bind. -/
def firstUnbound? (a : Assignment) (e : Expr) : Option Variable :=
  e.occurrences.find? fun v => (a.get? v).isNone

theorem firstUnbound?_binary (a : Assignment) (op : Connective) (l r : Expr) :
    (binary op l r).firstUnbound? a = (l.firstUnbound? a).or (r.firstUnbound? a) :=
  List.find?_append

/-- **The value is that of the bound variables**, unless one is not bound; then the first of these
is named. -/
theorem value_eq (a : Assignment) (e : Expr) :
    e.value a =
      match e.firstUnbound? a with
      | some v => .error (.unbound v)
      | none => .ok (e.meaning fun v => (a.get? v).getD false) := by
  induction e with
  | const b => rfl
  | var v =>
    rw [value, firstUnbound?, occurrences, List.find?_singleton]
    cases bound : a.get? v <;> simp [meaning, bound]
  | not e ih =>
    have same : (not e).firstUnbound? a = e.firstUnbound? a := rfl
    rw [value, ih, same]
    cases e.firstUnbound? a <;> rfl
  | binary op l r left right =>
    rw [value, left, right, firstUnbound?_binary]
    cases l.firstUnbound? a with
    | some v => rfl
    | none => cases r.firstUnbound? a <;> rfl

/-- The list of the variables tells which one is the first that is not bound. -/
theorem firstUnbound?_eq_some_iff {v : Variable} :
    e.firstUnbound? a = some v ↔
      ∃ before after, e.vars = before ++ v :: after ∧ (∀ w ∈ before, a.get? w ≠ none) ∧
        a.get? v = none := by
  have bound (w : Variable) : (!(a.get? w).isNone) = true ↔ a.get? w ≠ none := by
    cases a.get? w <;> simp
  rw [firstUnbound?, ← find?_eraseDups, List.find?_eq_some_iff_append, Option.isNone_iff_eq_none]
  simp only [bound]
  constructor
  · rintro ⟨missing, before, after, split, passed⟩
    exact ⟨before, after, split, passed, missing⟩
  · rintro ⟨before, after, split, passed, missing⟩
    exact ⟨missing, before, after, split, passed⟩

theorem firstUnbound?_eq_none_iff :
    e.firstUnbound? a = none ↔ ∀ v ∈ e.vars, a.get? v ≠ none := by
  rw [firstUnbound?, List.find?_eq_none]
  refine forall_congr' fun v => ?_
  rw [mem_vars_iff, Option.isNone_iff_eq_none]

theorem value_eq_error_iff {failure : Error} :
    e.value a = .error failure ↔ ∃ v, failure = .unbound v ∧ e.firstUnbound? a = some v := by
  rw [value_eq]
  cases e.firstUnbound? a <;> simp [eq_comm]

/-- **The value depends on the variables only**, and so does the error. -/
theorem value_congr (same : ∀ v ∈ e.vars, a.get? v = b.get? v) : e.value a = e.value b := by
  simp only [mem_vars_iff] at same
  induction e with
  | const _ => rfl
  | var v => rw [value, value, same v (List.mem_singleton.mpr rfl)]
  | not e ih => rw [value, value, ih same]
  | binary _ l r left right =>
    rw [value, value, left fun v member => same v (List.mem_append_left _ member),
      right fun v member => same v (List.mem_append_right _ member)]

/-- **An expression has a value exactly if all its variables are bound.** Otherwise the error names
the first of its variables that is not, also where the other operand alone decides the value; there
is no other error. Under two assignments that bind its variables alike, or leave them alike unbound,
it has the same value or error, in whatever order they are bound and whatever else is. -/
theorem value_spec (e : Expr) :
    e.vars = e.collect [] ∧
    (∀ a, (∃ failure, e.value a = .error failure) ↔ ∃ v ∈ e.vars, a.get? v = none) ∧
    (∀ a failure, e.value a = .error failure ↔
      ∃ v before after, failure = .unbound v ∧ e.vars = before ++ v :: after ∧
        (∀ w ∈ before, a.get? w ≠ none) ∧ a.get? v = none) ∧
    (∀ a, (∀ v ∈ e.vars, a.get? v ≠ none) → ∃ value, e.value a = .ok value) ∧
    ∀ a b : Assignment, (∀ v ∈ e.vars, a.get? v = b.get? v) → e.value a = e.value b := by
  refine ⟨e.collect_eq_vars.symm, fun a => ?_, fun a failure => ?_, fun a bound => ?_,
    fun a b => value_congr⟩
  · rw [value_eq]
    cases first : e.firstUnbound? a with
    | none =>
      have bound := firstUnbound?_eq_none_iff.mp first
      exact iff_of_false (by simp) fun ⟨v, member, missing⟩ => bound v member missing
    | some v =>
      obtain ⟨before, after, split, _, missing⟩ := firstUnbound?_eq_some_iff.mp first
      have member : v ∈ e.vars := by
        rw [split]
        exact List.mem_append_right _ (List.mem_cons_self ..)
      exact iff_of_true ⟨_, rfl⟩ ⟨v, member, missing⟩
  · rw [value_eq_error_iff]
    simp only [firstUnbound?_eq_some_iff, exists_and_left]
  · rw [value_eq, firstUnbound?_eq_none_iff.mpr bound]
    exact ⟨_, rfl⟩

/-- A conjunction with a false operand is not evaluated without the other one. Where both are bound,
neither their order nor a further variable matters. -/
theorem value_and_or_b_c :
    let a : Variable := ⟨'a', by decide⟩
    let b : Variable := ⟨'b', by decide⟩
    let c : Variable := ⟨'c', by decide⟩
    let e : Expr := .binary .and (.const false) (.binary .or (.var b) (.var c))
    let unsorted := ((Assignment.empty.insert c false).insert a true).insert b true
    let sorted := (Assignment.empty.insert b true).insert c false
    e.value (Assignment.empty.insert a true) = .error (.unbound b) ∧
      (∃ value, e.value unsorted = .ok value) ∧ e.value unsorted = e.value sorted := by
  intro a b c e unsorted sorted
  obtain ⟨_, _, named, total, alike⟩ := value_spec e
  have vars : e.vars = [b, c] := by decide
  refine ⟨(named _ _).mpr ⟨b, [], [c], rfl, vars, ?_, by decide⟩, total unsorted ?_,
    alike unsorted sorted ?_⟩
  · simp
  · rw [vars]
    decide
  · rw [vars]
    decide

end Expr

end Switching
