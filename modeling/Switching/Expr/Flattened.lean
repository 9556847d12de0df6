/-
**Flattened expressions.**

For many evaluations a tree is laid out as a list of nodes in breadth-first order. A node refers to
its operands by their index, which is larger than its own, and to a variable by its place in a list
of variables. One sweep from the last node to the first then computes all values.

* `length_placeNodes`: a tree has as many nodes as its size;
* `evaluate_eq_error_iff`: exactly too short a list of values is refused.
-/

import Switching.Error
import Switching.Expr.Basic
import Switching.Row

namespace Switching

/-! ### Nodes -/

/-- A node of a flattened expression; `operand`, `left` and `right` are indices of nodes. -/
inductive Node where
  | const (value : Bool)
  | var (place : Nat)
  | not (operand : Nat)
  | binary (op : Connective) (left right : Nat)
deriving DecidableEq

namespace Node

/-- The name of a connective's nodes. -/
def connectiveName : Connective → String
  | .and => "And"
  | .or => "Or"
  | .xor => "Xor"

/-- The index of a node as text. -/
def indexText (index : Nat) : String := "Idx(" ++ toString index ++ ")"

/-- The node as text, such as `And(Idx(1), Idx(2))`. -/
def text : Node → String
  | const value => "Const(" ++ toString value ++ ")"
  | var place => "Var(" ++ toString place ++ ")"
  | not operand => "Not(" ++ indexText operand ++ ")"
  | binary op left right =>
    connectiveName op ++ "(" ++ indexText left ++ ", " ++ indexText right ++ ")"

/-- The value of a node, from the values of the variables and of the nodes it refers to. -/
def value (inputs results : Nat → Bool) : Node → Bool
  | const b => b
  | var place => inputs place
  | not operand => !results operand
  | binary op left right => op.apply (results left) (results right)

/-- The node of the outermost operator of a tree whose operands are placed at `next` and behind. -/
def ofExpr (vars : List Variable) (next : Nat) : Expr → Except Error Node
  | .const value => .ok (const value)
  | .var v =>
    match vars.idxOf? v with
    | some place => .ok (var place)
    | none => .error (.unbound v)
  | .not _ => .ok (not next)
  | .binary op _ _ => .ok (binary op next (next + 1))

end Node

/-! ### Laying out a tree -/

/-- The total size of the trees in a queue. -/
def totalSize : List Expr → Nat
  | [] => 0
  | e :: queue => e.size + totalSize queue

theorem totalSize_append (first second : List Expr) :
    totalSize (first ++ second) = totalSize first + totalSize second := by
  induction first with
  | nil => simp [totalSize]
  | cons e first ih => simp [totalSize, ih, Nat.add_assoc]

/-- Taking a tree from the queue and queueing its operands makes the total size smaller. -/
theorem totalSize_operands (e : Expr) (queue : List Expr) :
    totalSize (queue ++ e.operands) + 1 = totalSize (e :: queue) := by
  rw [totalSize_append]
  cases e <;> simp only [Expr.operands, Expr.size, totalSize] <;> omega

/-- The nodes of the trees in a queue, in breadth-first order. The first operand that is queued will
get index `next`. -/
def placeNodes (vars : List Variable) (next : Nat) : List Expr → Except Error (List Node)
  | [] => .ok []
  | e :: queue =>
    match Node.ofExpr vars next e with
    | .error e => .error e
    | .ok node =>
      match placeNodes vars (next + e.operands.length) (queue ++ e.operands) with
      | .error e => .error e
      | .ok nodes => .ok (node :: nodes)
termination_by queue => totalSize queue
decreasing_by
  have smaller := totalSize_operands e queue
  omega

/-- There are as many nodes as the trees have leaves and operators. -/
theorem length_placeNodes {vars : List Variable} {next : Nat} {queue : List Expr}
    {nodes : List Node} (placed : placeNodes vars next queue = .ok nodes) :
    nodes.length = totalSize queue := by
  fun_induction placeNodes vars next queue generalizing nodes with
  | case1 =>
    cases placed
    rfl
  | case2 => cases placed
  | case3 => cases placed
  | case4 next e queue node first others rest ih =>
    cases placed
    rw [List.length_cons, ih rest, totalSize_operands]

/-- An expression laid out as a list of nodes. -/
structure Flattened where
  /-- The nodes, that of the whole tree first. -/
  nodes : List Node
  /-- The number of variables that values are needed for. -/
  width : Nat

namespace Flattened

/-- Lays out a tree, with its variables looked up in a list. -/
def ofExpr (e : Expr) (vars : List Variable) : Except Error Flattened :=
  match placeNodes vars 1 [e] with
  | .error e => .error e
  | .ok nodes => .ok ⟨nodes, vars.length⟩

/-- The values of the last nodes of a list of `size` nodes, that of the very last one first: the
value of the node with index `i` is number `size - 1 - i`. -/
def sweep (inputs : Nat → Bool) (size : Nat) : List Node → Array Bool
  | [] => .empty
  | node :: later =>
    let results := sweep inputs size later
    results.push (node.value inputs fun index => results.getD (size - 1 - index) false)

/-- The value of the whole tree for values of the variables. -/
def valueAt (flat : Flattened) (inputs : Nat → Bool) : Bool :=
  let size := flat.nodes.length
  (sweep inputs size flat.nodes).getD (size - 1) false

/-- The value of the whole tree for a list of values, which may be longer than needed. -/
def evaluate (flat : Flattened) (values : List Bool) : Except Misuse Bool :=
  if flat.width ≤ values.length then .ok (flat.valueAt fun place => values.getD place false)
  else .error (.missingValues flat.width values.length)

/-- The value in a row; digits of the row's number beyond the first `width` do not matter. -/
def valueInRow (flat : Flattened) (index : Nat) : Bool :=
  flat.valueAt fun place => place < flat.width && bit index flat.width place

/-- Exactly too short a list of values is refused. -/
theorem evaluate_eq_error_iff {flat : Flattened} {values : List Bool} {misuse : Misuse} :
    flat.evaluate values = .error misuse ↔
      values.length < flat.width ∧ misuse = .missingValues flat.width values.length := by
  by_cases enough : flat.width ≤ values.length
  · simp [evaluate, enough, Nat.not_lt.mpr enough]
  · simp only [evaluate, enough, if_false, Except.error.injEq, Nat.lt_of_not_le enough, true_and]
    exact eq_comm

/-- The value in a row is the value for the row's digits. -/
theorem evaluate_rowBits (flat : Flattened) (index : Nat) :
    flat.evaluate (rowBits index flat.width) = .ok (flat.valueInRow index) := by
  simp only [evaluate, valueInRow, length_rowBits, Nat.le_refl, if_true]
  congr 2
  funext place
  by_cases inside : place < flat.width <;> simp [rowBits, inside]

end Flattened

end Switching
