/-
**The sweep over a flattened expression.**

Trees are laid out from a queue. A tree that stands `j` places behind the front of the queue, when
`base` nodes have been placed, is the node with index `base + j`: every tree before it takes one
index, and operands are queued behind all of them. So a node's operands are swept before it, and
their values stand where it looks for them.

* `value_ofExpr`: a node has the value of its tree where its operands have theirs;
* `getD_sweep`: after the sweep every tree of the queue has its value, at its index;
* `exists_ofExpr`, `listed_of_ofExpr`: the trees whose variables are listed can be laid out, and no
  others;
* `valueAt_ofExpr`, `valueInRow_ofExpr`: the laid out tree has the value of the tree.
-/

import Switching.Expr.Flattened
import Switching.Expr.Value

namespace Switching

/-! ### Single nodes -/

/-- An operand of a tree has no variables of its own. -/
theorem Expr.occurrences_operands {e operand : Expr} (member : operand ∈ e.operands) {v : Variable}
    (occurs : v ∈ operand.occurrences) : v ∈ e.occurrences := by
  cases e with
  | const value => cases member
  | var w => cases member
  | not inner =>
    rw [List.mem_singleton.mp member] at occurs
    exact occurs
  | binary op left right =>
    refine List.mem_append.mpr ?_
    rcases List.mem_cons.mp member with rfl | last
    · exact .inl occurs
    · rw [List.mem_singleton.mp last] at occurs
      exact .inr occurs

/-- A variable that occurs is the whole tree or occurs in an operand. -/
theorem Expr.occurrences_cases {e : Expr} {v : Variable} (occurs : v ∈ e.occurrences) :
    e = .var v ∨ ∃ operand ∈ e.operands, v ∈ operand.occurrences := by
  cases e with
  | const value => cases occurs
  | var w => exact .inl (congrArg Expr.var (List.mem_singleton.mp occurs).symm)
  | not inner => exact .inr ⟨inner, List.mem_singleton.mpr rfl, occurs⟩
  | binary op left right =>
    rcases List.mem_append.mp occurs with first | second
    · exact .inr ⟨left, List.mem_cons_self .., first⟩
    · exact .inr ⟨right, List.mem_cons_of_mem _ (List.mem_singleton.mpr rfl), second⟩

theorem Node.listed_of_ofExpr {vars : List Variable} {next : Nat} {v : Variable} {node : Node}
    (placed : Node.ofExpr vars next (.var v) = .ok node) : v ∈ vars := by
  simp only [Node.ofExpr] at placed
  split at placed
  · rename_i place found
    exact List.mem_of_getElem? (List.getElem?_eq_some_iff.mpr
      ⟨(List.idxOf?_eq_some_iff.mp found).1, (List.idxOf?_eq_some_iff.mp found).2.1⟩)
  · cases placed

/-- Only a variable that is not listed has no node. -/
theorem Node.ofExpr_eq_error_iff {vars : List Variable} {next : Nat} {e : Expr} {failure : Error} :
    Node.ofExpr vars next e = .error failure ↔
      ∃ v, e = .var v ∧ v ∉ vars ∧ failure = .unbound v := by
  cases e with
  | var v =>
    cases found : vars.idxOf? v with
    | none =>
      have missing := List.idxOf?_eq_none_iff.mp found
      simp [ofExpr, found, missing, eq_comm]
    | some place =>
      have placed : Node.ofExpr vars next (.var v) = .ok (.var place) := by rw [ofExpr, found]
      simp [placed, Node.listed_of_ofExpr placed]
  | const value => simp [ofExpr]
  | not inner => simp [ofExpr]
  | binary op left right => simp [ofExpr]

section Sweep

variable {vars : List Variable} {inputs : Nat → Bool} {valuation : Variable → Bool}
  (agree : ∀ v place, vars.idxOf? v = some place → inputs place = valuation v)

include agree

/-- **A node has the value of its tree** where its operands have theirs. -/
theorem Node.value_ofExpr {next : Nat} {e : Expr} {node : Node}
    (placed : Node.ofExpr vars next e = .ok node) {results : Nat → Bool}
    (operands : ∀ i operand, e.operands[i]? = some operand →
      results (next + i) = operand.meaning valuation) :
    node.value inputs results = e.meaning valuation := by
  cases e with
  | const value =>
    cases placed
    rfl
  | var v =>
    simp only [Node.ofExpr] at placed
    split at placed
    · rename_i place found
      cases placed
      exact agree v place found
    · cases placed
  | not inner =>
    cases placed
    show (!results next) = !inner.meaning valuation
    rw [← operands 0 inner rfl, Nat.add_zero]
  | binary op left right =>
    cases placed
    show op.apply (results next) (results (next + 1)) = _
    rw [← Nat.add_zero next, operands 0 left rfl, Nat.add_zero, operands 1 right rfl]
    rfl

end Sweep

/-! ### The queue -/

theorem length_le_totalSize (queue : List Expr) : queue.length ≤ totalSize queue := by
  induction queue with
  | nil => exact Nat.le_refl _
  | cons e queue ih =>
    have positive := e.size_pos
    rw [totalSize, List.length_cons]
    omega

namespace Flattened

theorem ofExpr_eq_ok_iff {e : Expr} {vars : List Variable} {flat : Flattened} :
    ofExpr e vars = .ok flat ↔
      placeNodes vars 1 [e] = .ok flat.nodes ∧ flat.width = vars.length := by
  obtain ⟨nodes, width⟩ := flat
  unfold ofExpr
  cases placeNodes vars 1 [e] with
  | error e => simp
  | ok found => simp [eq_comm]

theorem width_ofExpr {e : Expr} {vars : List Variable} {flat : Flattened}
    (laid : ofExpr e vars = .ok flat) : flat.width = vars.length :=
  (ofExpr_eq_ok_iff.mp laid).2

theorem size_sweep (inputs : Nat → Bool) (size : Nat) (nodes : List Node) :
    (sweep inputs size nodes).size = nodes.length := by
  induction nodes with
  | nil => rfl
  | cons node later ih =>
    rw [sweep, Array.size_push, ih, List.length_cons]

/-- The first of the last nodes is swept last, and its value stands at its index. -/
theorem getD_sweep_head {inputs : Nat → Bool} {base size : Nat} {node : Node} {later : List Node}
    (whole : size = base + 1 + later.length) :
    (sweep inputs size (node :: later)).getD (size - 1 - base) false =
      node.value inputs fun index => (sweep inputs size later).getD (size - 1 - index) false := by
  have filled : (sweep inputs size later).size = size - 1 - base := by
    rw [size_sweep]
    omega
  rw [sweep, ← filled, Array.getD_eq_getD_getElem?, Array.getElem?_push_size, Option.getD_some]

/-- Sweeping it changes no other value. -/
theorem getD_sweep_tail {inputs : Nat → Bool} {base size : Nat} {node : Node} {later : List Node}
    (whole : size = base + 1 + later.length) {index : Nat} (behind : base < index)
    (inside : index < size) :
    (sweep inputs size (node :: later)).getD (size - 1 - index) false =
      (sweep inputs size later).getD (size - 1 - index) false := by
  have before : size - 1 - index < (sweep inputs size later).size := by
    rw [size_sweep]
    omega
  rw [sweep, Array.getD_eq_getD_getElem?, Array.getElem?_push_lt before,
    Array.getD_eq_getD_getElem?, Array.getElem?_eq_getElem before]

/-- Every tree of a queue that is laid out will be a node. -/
theorem length_le_of_placeNodes {vars : List Variable} {next : Nat} {queue : List Expr}
    {nodes : List Node} (placed : placeNodes vars next queue = .ok nodes) :
    queue.length ≤ nodes.length := by
  rw [length_placeNodes placed]
  exact length_le_totalSize queue

section Sweep

variable {vars : List Variable} {inputs : Nat → Bool} {valuation : Variable → Bool}
  (agree : ∀ v place, vars.idxOf? v = some place → inputs place = valuation v)

include agree

/-- **After the sweep every tree of the queue has its value at its index.** The induction is on the
layout: the operands of the first tree stand behind the rest of the queue. -/
theorem getD_sweep {next : Nat} {queue : List Expr} {nodes : List Node}
    (placed : placeNodes vars next queue = .ok nodes) {base size : Nat}
    (start : next = base + queue.length) (whole : size = base + nodes.length) {place : Nat}
    {e : Expr} (queued : queue[place]? = some e) :
    (sweep inputs size nodes).getD (size - 1 - (base + place)) false = e.meaning valuation := by
  fun_induction placeNodes vars next queue generalizing base nodes place e with
  | case1 => cases queued
  | case2 => cases placed
  | case3 => cases placed
  | case4 next tree queue node first others rest ih =>
    cases placed
    rw [List.length_cons] at start whole
    have laid (place : Nat) (e : Expr) (queued : (queue ++ tree.operands)[place]? = some e) :
        (sweep inputs size others).getD (size - 1 - (base + 1 + place)) false =
          e.meaning valuation := by
      refine ih rest ?_ ?_ queued
      · rw [List.length_append]
        omega
      · omega
    have room := length_le_of_placeNodes rest
    rw [List.length_append] at room
    replace whole : size = base + 1 + others.length := by omega
    cases place with
    | zero =>
      obtain rfl : tree = e := Option.some.inj queued
      rw [Nat.add_zero, getD_sweep_head whole]
      refine Node.value_ofExpr agree first fun i operand found => ?_
      have behind : (queue ++ tree.operands)[queue.length + i]? = some operand := by
        rw [List.getElem?_append_right (Nat.le_add_right _ _), Nat.add_sub_cancel_left]
        exact found
      have index : next + i = base + 1 + (queue.length + i) := by omega
      rw [index]
      exact laid _ operand behind
    | succ place =>
      have later : queue[place]? = some e := queued
      have inside := (List.getElem?_eq_some_iff.mp later).1
      have kept : (queue ++ tree.operands)[place]? = some e := by
        rw [List.getElem?_append_left inside]
        exact later
      have index : base + (place + 1) = base + 1 + place := by omega
      rw [index, getD_sweep_tail whole (by omega) (by omega)]
      exact laid place e kept

/-- **A laid out tree has the value of the tree.** -/
theorem valueAt_ofExpr {e : Expr} {flat : Flattened} (laid : ofExpr e vars = .ok flat) :
    flat.valueAt inputs = e.meaning valuation := by
  obtain ⟨placed, _⟩ := ofExpr_eq_ok_iff.mp laid
  exact @getD_sweep vars inputs valuation agree 1 [e] flat.nodes placed 0 flat.nodes.length rfl
    (Nat.zero_add _).symm 0 e rfl

end Sweep

/-- **In a row a laid out tree has the value of the tree** for the digits of the row. -/
theorem valueInRow_ofExpr {e : Expr} {vars : List Variable} {flat : Flattened}
    (laid : ofExpr e vars = .ok flat) {index : Nat} {valuation : Variable → Bool}
    (agree : ∀ v place, vars.idxOf? v = some place → bit index vars.length place = valuation v) :
    flat.valueInRow index = e.meaning valuation := by
  refine valueAt_ofExpr ?_ laid
  intro v place found
  have inside := (List.idxOf?_eq_some_iff.mp found).1
  rw [width_ofExpr laid, decide_eq_true inside, Bool.true_and]
  exact agree v place found

/-! ### Trees that can be laid out -/

theorem exists_placeNodes {vars : List Variable} (next : Nat) (queue : List Expr)
    (listed : ∀ e ∈ queue, ∀ v ∈ e.occurrences, v ∈ vars) :
    ∃ nodes, placeNodes vars next queue = .ok nodes := by
  fun_induction placeNodes vars next queue with
  | case1 => exact ⟨[], rfl⟩
  | case2 next e queue failure missing =>
    obtain ⟨v, rfl, outside, _⟩ := Node.ofExpr_eq_error_iff.mp missing
    exact absurd (listed _ (List.mem_cons_self ..) v (List.mem_singleton.mpr rfl)) outside
  | case3 next e queue node first failure failed ih =>
    have rest : ∀ later ∈ queue ++ e.operands, ∀ v ∈ later.occurrences, v ∈ vars := by
      intro later member v occurs
      rcases List.mem_append.mp member with queued | operand
      · exact listed later (List.mem_cons_of_mem _ queued) v occurs
      · exact listed e (List.mem_cons_self ..) v (Expr.occurrences_operands operand occurs)
    obtain ⟨nodes, placed⟩ := ih rest
    rw [failed] at placed
    cases placed
  | case4 next e queue node first others rest ih => exact ⟨_, rfl⟩

/-- **A tree whose variables are listed can be laid out.** -/
theorem exists_ofExpr {e : Expr} {vars : List Variable} (listed : ∀ v ∈ e.occurrences, v ∈ vars) :
    ∃ flat, ofExpr e vars = .ok flat := by
  obtain ⟨nodes, placed⟩ := @exists_placeNodes vars 1 [e] (by simpa using listed)
  exact ⟨⟨nodes, vars.length⟩, ofExpr_eq_ok_iff.mpr ⟨placed, rfl⟩⟩

theorem listed_of_placeNodes {vars : List Variable} {next : Nat} {queue : List Expr}
    {nodes : List Node} (placed : placeNodes vars next queue = .ok nodes) :
    ∀ e ∈ queue, ∀ v ∈ e.occurrences, v ∈ vars := by
  fun_induction placeNodes vars next queue generalizing nodes with
  | case1 =>
    intro e queued
    cases queued
  | case2 => cases placed
  | case3 => cases placed
  | case4 next tree queue node first others rest ih =>
    have later := ih rest
    intro e queued v occurs
    rcases List.mem_cons.mp queued with rfl | behind
    · rcases Expr.occurrences_cases occurs with rfl | ⟨operand, member, inside⟩
      · exact Node.listed_of_ofExpr first
      · exact later operand (List.mem_append_right _ member) v inside
    · exact later e (List.mem_append_left _ behind) v occurs

/-- **Only a tree whose variables are listed is laid out.** -/
theorem listed_of_ofExpr {e : Expr} {vars : List Variable} {flat : Flattened}
    (laid : ofExpr e vars = .ok flat) : ∀ v ∈ e.occurrences, v ∈ vars :=
  listed_of_placeNodes (ofExpr_eq_ok_iff.mp laid).1 e (List.mem_singleton.mpr rfl)

end Flattened

end Switching
