/-
**Values of expressions.**

The value of an expression under an assignment. Both operands of a connective are evaluated, even
where one decides the value, so that every variable without a value is noticed.

* `value_binary`: a connective combines the values of its operands;
* `meaning_eq_true_iff`, `value_eq_true_iff`: values are those of propositional logic;
* `evaluate`: reads a text and evaluates it.
-/

import Switching.Assignment
import Switching.Expr.Parser

namespace Switching

namespace Expr

/-- The value under an assignment, or the first variable from the left that has none. -/
def value (a : Assignment) : Expr → Except Error Bool
  | const b => .ok b
  | var v =>
    match a.get? v with
    | some b => .ok b
    | none => .error (.unbound v)
  | not e =>
    match e.value a with
    | .ok b => .ok !b
    | .error e => .error e
  | binary op l r =>
    match l.value a with
    | .error e => .error e
    | .ok first =>
      match r.value a with
      | .error e => .error e
      | .ok second => .ok (op.apply first second)

/-- The value where every variable has one. -/
def meaning (valuation : Variable → Bool) : Expr → Bool
  | const b => b
  | var v => valuation v
  | not e => !e.meaning valuation
  | binary op l r => op.apply (l.meaning valuation) (r.meaning valuation)

theorem value_not {a : Assignment} {e : Expr} {b : Bool} (inner : e.value a = .ok b) :
    (not e).value a = .ok !b := by
  simp [value, inner]

/-- A connective combines the values of its operands. -/
theorem value_binary {a : Assignment} {op : Connective} {l r : Expr} {first second : Bool}
    (left : l.value a = .ok first) (right : r.value a = .ok second) :
    (binary op l r).value a = .ok (op.apply first second) := by
  simp [value, left, right]

/-- The expression as a proposition, with a proposition for each variable. -/
def Holds (facts : Variable → Prop) : Expr → Prop
  | const b => b = true
  | var v => facts v
  | not e => ¬ e.Holds facts
  | binary .and l r => l.Holds facts ∧ r.Holds facts
  | binary .or l r => l.Holds facts ∨ r.Holds facts
  | binary .xor l r => ¬ (l.Holds facts ↔ r.Holds facts)

/-- **Values are those of propositional logic.** -/
theorem meaning_eq_true_iff {valuation : Variable → Bool} {e : Expr} :
    e.meaning valuation = true ↔ e.Holds fun v => valuation v = true := by
  induction e with
  | const b => rfl
  | var v => rfl
  | not e ih => rw [meaning, Holds, ← ih, Bool.not_eq_true', Bool.not_eq_true]
  | binary op l r left right =>
    rw [meaning]
    cases op with
    | and => rw [Connective.apply_and, left, right, Holds]
    | or => rw [Connective.apply_or, left, right, Holds]
    | xor => rw [Connective.apply_xor, Holds, ← left, ← right, ← Bool.eq_iff_iff]

/-- Where every variable that occurs has its value from a valuation, so has the expression. -/
theorem value_eq_meaning {a : Assignment} {valuation : Variable → Bool} {e : Expr}
    (bound : ∀ v ∈ e.occurrences, a.get? v = some (valuation v)) :
    e.value a = .ok (e.meaning valuation) := by
  induction e with
  | const b => rfl
  | var v => simp [value, meaning, bound v (by simp [occurrences])]
  | not e ih => exact value_not (ih bound)
  | binary op l r left right =>
    simp only [occurrences, List.mem_append] at bound
    exact value_binary (left fun v member => bound v (.inl member))
      (right fun v member => bound v (.inr member))

/-- **An expression is true where it holds**, as a proposition about which variables are bound to
true. -/
theorem value_eq_true_iff {a : Assignment} {e : Expr}
    (bound : ∀ v ∈ e.occurrences, v ∈ a.vars) :
    e.value a = .ok true ↔ e.Holds fun v => a.get? v = some true := by
  let valuation : Variable → Bool := fun v => (a.get? v).getD false
  have valued : ∀ v ∈ e.occurrences, a.get? v = some (valuation v) := by
    intro v occurs
    obtain ⟨value, found⟩ := Option.isSome_iff_exists.mp (Bindings.get?_isSome.mpr (bound v occurs))
    have here : a.get? v = some value := found
    show a.get? v = some ((a.get? v).getD false)
    rw [here, Option.getD_some]
  have facts : (fun v => valuation v = true) = fun v => a.get? v = some true := by
    funext v
    show ((a.get? v).getD false = true) = (a.get? v = some true)
    cases a.get? v <;> simp
  rw [value_eq_meaning valued, Except.ok.injEq, meaning_eq_true_iff, facts]

end Expr

/-- Reads a text and evaluates it. -/
def evaluate (text : String) (a : Assignment) : Except Error Bool :=
  match parse text with
  | .error e => .error (.parse e)
  | .ok e => e.value a

end Switching
