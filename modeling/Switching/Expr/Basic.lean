/-
**Expressions.**

Boolean expressions as trees, their depth, their size and their variables.

* `mem_vars_iff`: the variables are those that occur;
* `depth_lt_size`: a tree is less deep than it is large.
-/

import Switching.Connective
import Switching.Variable

namespace Switching

/-- A boolean expression. -/
inductive Expr where
  | const (value : Bool)
  | var (v : Variable)
  | not (operand : Expr)
  | binary (op : Connective) (left right : Expr)
deriving DecidableEq

namespace Expr

/-- The number of operators on the longest way to a leaf. -/
def depth : Expr → Nat
  | const _ | var _ => 0
  | not e => e.depth + 1
  | binary _ l r => max l.depth r.depth + 1

/-- The number of leaves and operators. -/
def size : Expr → Nat
  | const _ | var _ => 1
  | not e => e.size + 1
  | binary _ l r => l.size + r.size + 1

/-- The variables from left to right, as often as they occur. -/
def occurrences : Expr → List Variable
  | const _ => []
  | var v => [v]
  | not e => e.occurrences
  | binary _ l r => l.occurrences ++ r.occurrences

/-- The distinct variables in order of first occurrence. -/
def vars (e : Expr) : List Variable := e.occurrences.eraseDups

/-- The operands of the outermost operator. -/
def operands : Expr → List Expr
  | const _ | var _ => []
  | not e => [e]
  | binary _ l r => [l, r]

theorem mem_vars_iff {e : Expr} {v : Variable} : v ∈ e.vars ↔ v ∈ e.occurrences :=
  List.mem_eraseDups

theorem size_pos (e : Expr) : 0 < e.size := by
  cases e <;> simp [size]

/-- A tree is less deep than it is large. -/
theorem depth_lt_size (e : Expr) : e.depth < e.size := by
  induction e with
  | const _ => simp [depth, size]
  | var _ => simp [depth, size]
  | not _ ih => simpa [depth, size] using ih
  | binary _ l r left right => simp only [depth, size]; omega

end Expr

end Switching
