/-
**The order of a layout.**

Trees are laid out from a queue. When a tree is taken from it, the queue holds the rest of its level
and, behind that, the operands of what was taken before; so the queue goes through a tree level by
level, and the place of an operand is known when it is queued. Every node stands for the tree that
comes at its place in this order, and the nodes refer to the places 1, 2, 3 and so on, each once.

* `Expr.level`, `Expr.breadthFirst`: the trees within a tree, level by level from left to right;
* `dequeued_singleton`: this is the order in which a queue yields them;
* `countNodes_eq`: the index that is counted off the queue is the index of the layout;
* `placeNodes_eq_error_iff`: a layout fails at the first variable that is not listed;
* `readTree?`, `readTree?_of_placeNodes`: every node stands for the tree at its place;
* `operands_of_placeNodes`: the nodes refer to all places behind the queue in order;
* `ofExpr_spec`: which trees are laid out, and how.
-/

import Mathlib.Data.List.Nodup
import Switching.Proofs.Table.CheckedSweep

namespace Switching

/-! ### Levels -/

/-- The trees within a tree that are this far below its root, from left to right. -/
def Expr.level (e : Expr) : Nat → List Expr
  | 0 => [e]
  | distance + 1 => (e.level distance).flatMap Expr.operands

/-- The trees within a tree, level by level from left to right. -/
def Expr.breadthFirst (e : Expr) : List Expr :=
  (List.range (e.depth + 1)).flatMap e.level

theorem Expr.depth_operand_lt {e operand : Expr} (member : operand ∈ e.operands) :
    operand.depth < e.depth := by
  cases e with
  | const value => cases member
  | var v => cases member
  | not inner =>
    rw [List.mem_singleton.mp member]
    exact Nat.lt_succ_self _
  | binary op left right =>
    rw [depth]
    rcases List.mem_cons.mp member with rfl | last
    · omega
    · rw [List.mem_singleton.mp last]
      omega

/-- What is far below the root is shallow. -/
theorem Expr.depth_level {e tree : Expr} {distance : Nat} (member : tree ∈ e.level distance) :
    tree.depth + distance ≤ e.depth := by
  induction distance generalizing tree with
  | zero =>
    rw [List.mem_singleton.mp member]
    exact Nat.le_refl _
  | succ distance ih =>
    obtain ⟨above, there, operand⟩ := List.mem_flatMap.mp member
    have less := Expr.depth_operand_lt operand
    have bound := ih there
    omega

theorem Expr.level_eq_nil {e : Expr} {distance : Nat} (below : e.depth < distance) :
    e.level distance = [] := by
  refine List.eq_nil_iff_forall_not_mem.mpr fun tree member => ?_
  have bound := Expr.depth_level member
  omega

/-! ### The queue -/

/-- The trees that a queue yields, where each leaves its operands behind the others. -/
def dequeued : List Expr → List Expr
  | [] => []
  | e :: queue => e :: dequeued (queue ++ e.operands)
termination_by queue => totalSize queue
decreasing_by
  have smaller := totalSize_operands e queue
  omega

theorem dequeued_nil : dequeued [] = [] := by
  rw [dequeued]

theorem dequeued_cons (e : Expr) (queue : List Expr) :
    dequeued (e :: queue) = e :: dequeued (queue ++ e.operands) := by
  rw [dequeued]

/-- **A queue yields its front, and has the operands of the front behind the rest by then.** -/
theorem dequeued_append (front back : List Expr) :
    dequeued (front ++ back) = front ++ dequeued (back ++ front.flatMap Expr.operands) := by
  induction front generalizing back with
  | nil => rw [List.flatMap_nil, List.append_nil, List.nil_append, List.nil_append]
  | cons e front ih =>
    rw [List.cons_append, dequeued_cons, List.append_assoc, ih, List.flatMap_cons,
      List.append_assoc, List.cons_append]

theorem dequeued_eq_append (queue : List Expr) :
    dequeued queue = queue ++ dequeued (queue.flatMap Expr.operands) := by
  have whole := dequeued_append queue []
  rwa [List.append_nil, List.nil_append] at whole

/-- **A tree is taken apart level by level.** -/
theorem dequeued_singleton (e : Expr) : dequeued [e] = e.breadthFirst := by
  have through (levels : Nat) :
      dequeued [e] = (List.range levels).flatMap e.level ++ dequeued (e.level levels) := by
    induction levels with
    | zero => rfl
    | succ levels ih =>
      rw [ih, dequeued_eq_append (e.level levels), List.range_succ, List.flatMap_append,
        List.flatMap_singleton, List.append_assoc]
      rfl
  rw [through (e.depth + 1), Expr.level_eq_nil (Nat.lt_succ_self _), dequeued_nil,
    List.append_nil]
  rfl

theorem getElem?_dequeued {queue : List Expr} {place : Nat} {e : Expr}
    (queued : queue[place]? = some e) : (dequeued queue)[place]? = some e := by
  have inside := (List.getElem?_eq_some_iff.mp queued).1
  rw [dequeued_eq_append, List.getElem?_append_left inside, queued]

/-! ### Indices counted off the queue -/

/-- Puts an operand into the queue. Its index is that of the node that is placed, and one more for
every tree in the queue by then. -/
def enqueue (placed : Nat) (queue : List Expr) (operand : Expr) : Nat × List Expr :=
  (placed + (queue ++ [operand]).length, queue ++ [operand])

/-- The node of the outermost operator of a tree, and the queue with its operands. -/
def Node.counted (vars : List Variable) (placed : Nat) (queue : List Expr) :
    Expr → Except Error (Node × List Expr)
  | .const value => .ok (const value, queue)
  | .var v =>
    match vars.idxOf? v with
    | some place => .ok (var place, queue)
    | none => .error (.unbound v)
  | .not inner =>
    let (operand, queue) := enqueue placed queue inner
    .ok (not operand, queue)
  | .binary op l r =>
    let (left, queue) := enqueue placed queue l
    let (right, queue) := enqueue placed queue r
    .ok (binary op left right, queue)

/-- Counting gives the node of the layout, and queues the operands. -/
theorem Node.counted_eq (vars : List Variable) (placed : Nat) (queue : List Expr) (e : Expr) :
    Node.counted vars placed queue e =
      (Node.ofExpr vars (placed + (e :: queue).length) e).map (·, queue ++ e.operands) := by
  cases e with
  | const value => simp [counted, ofExpr, Expr.operands, Except.map]
  | var v => cases found : vars.idxOf? v <;> simp [counted, ofExpr, found, Expr.operands, Except.map]
  | not inner => simp [counted, enqueue, ofExpr, Expr.operands, Except.map]
  | binary op left right => simp [counted, enqueue, ofExpr, Expr.operands, Except.map, Nat.add_assoc]

theorem Node.counted_eq_ok {vars : List Variable} {placed : Nat} {queue later : List Expr} {e : Expr}
    {node : Node} (made : Node.counted vars placed queue e = .ok (node, later)) :
    Node.ofExpr vars (placed + (e :: queue).length) e = .ok node ∧ queue ++ e.operands = later := by
  rw [counted_eq] at made
  cases first : Node.ofExpr vars (placed + (e :: queue).length) e with
  | error failure =>
    rw [first] at made
    cases made
  | ok node =>
    rw [first] at made
    cases made
    exact ⟨rfl, rfl⟩

theorem Node.counted_eq_error {vars : List Variable} {placed : Nat} {queue : List Expr} {e : Expr}
    {failure : Error} (made : Node.counted vars placed queue e = .error failure) :
    Node.ofExpr vars (placed + (e :: queue).length) e = .error failure := by
  rw [counted_eq] at made
  cases first : Node.ofExpr vars (placed + (e :: queue).length) e with
  | error failure =>
    rw [first] at made
    cases made
    rfl
  | ok node =>
    rw [first] at made
    cases made

/-- The nodes of the trees in a queue, where the index of every operand is counted off the queue
when it is put there. -/
def countNodes (vars : List Variable) (placed : Nat) : List Expr → Except Error (List Node)
  | [] => .ok []
  | e :: queue =>
    match _made : Node.counted vars placed queue e with
    | .error e => .error e
    | .ok (node, later) =>
      match countNodes vars (placed + 1) later with
      | .error e => .error e
      | .ok nodes => .ok (node :: nodes)
termination_by queue => totalSize queue
decreasing_by
  have smaller := totalSize_operands e queue
  rw [(Node.counted_eq_ok _made).2] at smaller
  omega

/-- The operands of a tree that is placed get the next indices behind its queue. -/
theorem next_of_operands (placed : Nat) (e : Expr) (queue : List Expr) :
    placed + 1 + (queue ++ e.operands).length =
      placed + (e :: queue).length + e.operands.length := by
  rw [List.length_append, List.length_cons]
  omega

/-- **The index that is counted off the queue is the index of the layout.** -/
theorem countNodes_eq (vars : List Variable) (placed : Nat) (queue : List Expr) :
    countNodes vars placed queue = placeNodes vars (placed + queue.length) queue := by
  fun_induction countNodes vars placed queue with
  | case1 => rw [placeNodes]
  | case2 placed e queue failure made =>
    rw [placeNodes, Node.counted_eq_error made]
  | case3 placed e queue node later made failure failed ih =>
    obtain ⟨first, rfl⟩ := Node.counted_eq_ok made
    rw [failed, next_of_operands] at ih
    rw [placeNodes, first]
    simp only [← ih]
  | case4 placed e queue node later made nodes rest ih =>
    obtain ⟨first, rfl⟩ := Node.counted_eq_ok made
    rw [rest, next_of_operands] at ih
    rw [placeNodes, first]
    simp only [← ih]

/-! ### Variables that are not listed -/

/-- Among these trees, this is the first variable that is not listed. -/
def FirstMissing (vars : List Variable) (trees : List Expr) (v : Variable) : Prop :=
  ∃ before after, trees = before ++ .var v :: after ∧
    (∀ w, .var w ∈ before → w ∈ vars) ∧ v ∉ vars

theorem not_firstMissing_nil (vars : List Variable) (v : Variable) : ¬ FirstMissing vars [] v := by
  rintro ⟨before, after, split, _⟩
  simp at split

/-- It is the first tree, or the first is no such variable and it is that of the others. -/
theorem firstMissing_cons_iff {vars : List Variable} {e : Expr} {trees : List Expr} {v : Variable} :
    FirstMissing vars (e :: trees) v ↔
      (e = .var v ∧ v ∉ vars) ∨ (∀ w, e = .var w → w ∈ vars) ∧ FirstMissing vars trees v := by
  constructor
  · rintro ⟨before, after, split, listed, missing⟩
    cases before with
    | nil =>
      cases split
      exact .inl ⟨rfl, missing⟩
    | cons first before =>
      cases split
      refine .inr ⟨fun w same => listed w (same ▸ List.mem_cons_self ..), before, after, rfl, ?_,
        missing⟩
      exact fun w member => listed w (List.mem_cons_of_mem _ member)
  · rintro (⟨rfl, missing⟩ | ⟨here, before, after, rfl, listed, missing⟩)
    · exact ⟨[], trees, rfl, fun w member => absurd member List.not_mem_nil, missing⟩
    · refine ⟨e :: before, after, rfl, fun w member => ?_, missing⟩
      rcases List.mem_cons.mp member with same | behind
      · exact here w same.symm
      · exact listed w behind

/-- A tree that has a node is not missed, so the search goes on behind it. -/
theorem firstMissing_dequeued_cons_iff {vars : List Variable} {next : Nat} {e : Expr} {node : Node}
    (placed : Node.ofExpr vars next e = .ok node) {queue : List Expr} {v : Variable} :
    FirstMissing vars (dequeued (e :: queue)) v ↔
      FirstMissing vars (dequeued (queue ++ e.operands)) v := by
  have listed : ∀ w, e = .var w → w ∈ vars := by
    rintro w rfl
    exact Node.listed_of_ofExpr placed
  rw [dequeued_cons, firstMissing_cons_iff, and_iff_right listed]
  exact or_iff_right fun here => here.2 (listed v here.1)

/-- **A layout fails at the first variable that is not listed**, in the order of the queue. -/
theorem placeNodes_eq_error_iff {vars : List Variable} {next : Nat} {queue : List Expr}
    {failure : Error} :
    placeNodes vars next queue = .error failure ↔
      ∃ v, failure = .unbound v ∧ FirstMissing vars (dequeued queue) v := by
  fun_induction placeNodes vars next queue with
  | case1 => simp [dequeued_nil, not_firstMissing_nil]
  | case2 next e queue failure' missing =>
    obtain ⟨v, rfl, outside, rfl⟩ := Node.ofExpr_eq_error_iff.mp missing
    simp only [dequeued_cons, firstMissing_cons_iff, Except.error.injEq]
    constructor
    · rintro rfl
      exact ⟨v, rfl, .inl ⟨rfl, outside⟩⟩
    · rintro ⟨w, rfl, ⟨same, _⟩ | ⟨listed, _⟩⟩
      · cases same
        rfl
      · exact absurd (listed v rfl) outside
  | case3 next e queue node first failure' failed ih =>
    simp only [firstMissing_dequeued_cons_iff first, ← ih, failed]
  | case4 next e queue node first nodes rest ih =>
    simp only [firstMissing_dequeued_cons_iff first, ← ih, rest, reduceCtorEq]

/-! ### Nodes and the trees they stand for -/

/-- The tree of the node at an index, with variables looked up in a list, if it has no more levels
than this. -/
def readTree? (vars : List Variable) (nodes : List Node) : Nat → Nat → Option Expr
  | 0, _ => none
  | levels + 1, index =>
    match nodes[index]? with
    | none => none
    | some (.const value) => some (.const value)
    | some (.var place) => (vars[place]?).map .var
    | some (.not operand) => (readTree? vars nodes levels operand).map .not
    | some (.binary op left right) =>
      (readTree? vars nodes levels left).bind fun l =>
        (readTree? vars nodes levels right).map fun r => .binary op l r

/-- A node stands for its tree where its operands stand for theirs. -/
theorem readTree?_ofExpr {vars : List Variable} {next : Nat} {e : Expr} {node : Node}
    (placed : Node.ofExpr vars next e = .ok node) {nodes : List Node} {index levels : Nat}
    (here : nodes[index]? = some node) (operands : ∀ i operand, e.operands[i]? = some operand →
      readTree? vars nodes levels (next + i) = some operand) :
    readTree? vars nodes (levels + 1) index = some e := by
  rw [readTree?, here]
  cases e with
  | const value =>
    cases placed
    rfl
  | var v =>
    simp only [Node.ofExpr] at placed
    split at placed
    · rename_i place found
      cases placed
      obtain ⟨inside, same, _⟩ := List.idxOf?_eq_some_iff.mp found
      have there : vars[place]? = some v := List.getElem?_eq_some_iff.mpr ⟨inside, same⟩
      simp only [there, Option.map_some]
    · cases placed
  | not inner =>
    cases placed
    have whole := operands 0 inner rfl
    rw [Nat.add_zero] at whole
    simp only [whole, Option.map_some]
  | binary op left right =>
    cases placed
    have first := operands 0 left rfl
    rw [Nat.add_zero] at first
    simp only [first, operands 1 right rfl, Option.bind_some, Option.map_some]

/-- **Every node stands for the tree at its place.** The trees of a queue become the nodes from
`base` on, and the operands of the first are queued behind it; the induction is on the layout. -/
theorem readTree?_of_placeNodes {vars : List Variable} {next : Nat} {queue : List Expr}
    {nodes whole : List Node} (placed : placeNodes vars next queue = .ok nodes) {base : Nat}
    (start : next = base + queue.length) (behind : whole.drop base = nodes) {place levels : Nat}
    {e : Expr} (here : (dequeued queue)[place]? = some e) (deep : e.depth < levels) :
    readTree? vars whole levels (base + place) = some e := by
  fun_induction placeNodes vars next queue generalizing base nodes place levels e with
  | case1 =>
    rw [dequeued_nil] at here
    cases here
  | case2 => cases placed
  | case3 => cases placed
  | case4 next tree queue node first others rest ih =>
    cases placed
    rw [dequeued_cons] at here
    have later : whole.drop (base + 1) = others := by
      rw [← List.drop_drop, behind, List.drop_one, List.tail_cons]
    have laid (place levels : Nat) (e : Expr)
        (here : (dequeued (queue ++ tree.operands))[place]? = some e) (deep : e.depth < levels) :
        readTree? vars whole levels (base + 1 + place) = some e := by
      refine ih rest ?_ later here deep
      rw [start, next_of_operands]
    cases place with
    | zero =>
      obtain rfl : tree = e := Option.some.inj here
      obtain ⟨levels, rfl⟩ := Nat.exists_eq_add_one.mpr (Nat.zero_lt_of_lt deep)
      have node : whole[base + 0]? = some node := by
        rw [← List.getElem?_drop, behind]
        rfl
      refine readTree?_ofExpr first node fun i operand found => ?_
      have queued : (queue ++ tree.operands)[queue.length + i]? = some operand := by
        rw [List.getElem?_append_right (Nat.le_add_right _ _), Nat.add_sub_cancel_left]
        exact found
      have index : next + i = base + 1 + (queue.length + i) := by
        rw [start, List.length_cons]
        omega
      have shallow := Expr.depth_operand_lt (List.mem_of_getElem? found)
      rw [index]
      exact laid _ _ _ (getElem?_dequeued queued) (by omega)
    | succ place =>
      have index : base + (place + 1) = base + 1 + place := by omega
      rw [index]
      exact laid _ _ _ here deep

/-! ### Nodes and the nodes they refer to -/

/-- The indices of the nodes that a node refers to. -/
def Node.operands : Node → List Nat
  | const _ | var _ => []
  | not operand => [operand]
  | binary _ left right => [left, right]

theorem Node.Within.operands {index size width : Nat} {node : Node}
    (within : node.Within index size width) :
    ∀ operand ∈ node.operands, index < operand ∧ operand < size := by
  cases node with
  | const value => simp [Node.operands]
  | var place => simp [Node.operands]
  | not operand =>
    exact List.forall_mem_singleton.mpr within
  | binary op left right =>
    exact List.forall_mem_cons.mpr ⟨within.1, List.forall_mem_singleton.mpr within.2⟩

theorem Node.operands_ofExpr {vars : List Variable} {next : Nat} {e : Expr} {node : Node}
    (placed : Node.ofExpr vars next e = .ok node) :
    node.operands = List.range' next e.operands.length := by
  cases e with
  | const value =>
    cases placed
    rfl
  | var v =>
    simp only [Node.ofExpr] at placed
    split at placed <;> cases placed
    rfl
  | not inner =>
    cases placed
    rfl
  | binary op left right =>
    cases placed
    rfl

/-- **The nodes refer to all places behind the queue, in order and each once.** -/
theorem operands_of_placeNodes {vars : List Variable} {next : Nat} {queue : List Expr}
    {nodes : List Node} (placed : placeNodes vars next queue = .ok nodes) :
    nodes.flatMap Node.operands = List.range' next (nodes.length - queue.length) := by
  fun_induction placeNodes vars next queue generalizing nodes with
  | case1 =>
    cases placed
    rfl
  | case2 => cases placed
  | case3 => cases placed
  | case4 next e queue node first others rest ih =>
    cases placed
    have room := Flattened.length_le_of_placeNodes rest
    rw [List.length_append] at room
    have count : (node :: others).length - (e :: queue).length =
        e.operands.length + (others.length - (queue ++ e.operands).length) := by
      rw [List.length_append, List.length_cons, List.length_cons]
      omega
    rw [List.flatMap_cons, ih rest, Node.operands_ofExpr first, count, ← List.range'_append_1]

theorem length_dequeued (queue : List Expr) : (dequeued queue).length = totalSize queue := by
  fun_induction dequeued queue with
  | case1 => rfl
  | case2 e queue ih => rw [List.length_cons, ih, totalSize_operands]

/-- There are as many trees within a tree as it has leaves and operators. -/
theorem Expr.length_breadthFirst (e : Expr) : e.breadthFirst.length = e.size := by
  rw [← dequeued_singleton, length_dequeued]
  rfl

namespace Flattened

/-- The tree that the node at an index stands for. No tree has more levels than nodes. -/
def treeAt? (flat : Flattened) (vars : List Variable) (index : Nat) : Option Expr :=
  readTree? vars flat.nodes flat.nodes.length index

/-- The node at an index refers to that at another. -/
def RefersTo (flat : Flattened) (index operand : Nat) : Prop :=
  ∃ node, flat.nodes[index]? = some node ∧ operand ∈ node.operands

/-- **A tree laid out breadth first**, with its variables looked up in a list. -/
structure LaysOut (flat : Flattened) (e : Expr) (vars : List Variable) : Prop where
  /-- There are as many nodes as leaves and operators. -/
  length : flat.nodes.length = e.size
  /-- The first node stands for the whole tree. -/
  root : flat.treeAt? vars 0 = some e
  /-- The nodes stand for the trees within it, level by level from left to right. -/
  trees : ∀ index, flat.treeAt? vars index = e.breadthFirst[index]?
  /-- A node refers to later nodes. -/
  later : ∀ index operand, flat.RefersTo index operand →
    index < operand ∧ operand < flat.nodes.length
  /-- Exactly one node refers to any other than the first. -/
  once : ∀ operand, 0 < operand → operand < flat.nodes.length →
    ∃! index, flat.RefersTo index operand

section LaysOut

variable {e : Expr} {vars : List Variable} {flat : Flattened} (laid : ofExpr e vars = .ok flat)

include laid

theorem length_ofExpr : flat.nodes.length = e.size := by
  rw [length_placeNodes (ofExpr_eq_ok_iff.mp laid).1]
  rfl

/-- **The nodes stand for the trees within a tree**, level by level from left to right. -/
theorem treeAt?_eq (index : Nat) : flat.treeAt? vars index = e.breadthFirst[index]? := by
  have length := length_ofExpr laid
  cases here : e.breadthFirst[index]? with
  | none =>
    have beyond := List.getElem?_eq_none_iff.mp here
    rw [e.length_breadthFirst, ← length] at beyond
    have nowhere : flat.nodes[index]? = none := List.getElem?_eq_none_iff.mpr beyond
    unfold treeAt?
    cases flat.nodes.length with
    | zero => rfl
    | succ levels => rw [readTree?, nowhere]
  | some tree =>
    obtain ⟨distance, _, member⟩ := List.mem_flatMap.mp (List.mem_of_getElem? here)
    have few : tree.depth < flat.nodes.length := by
      have shallow := Expr.depth_level member
      have deep := e.depth_lt_size
      omega
    rw [← dequeued_singleton] at here
    have stands := readTree?_of_placeNodes (ofExpr_eq_ok_iff.mp laid).1 (Nat.zero_add 1).symm
      List.drop_zero here few
    rwa [Nat.zero_add] at stands

theorem operands_ofExpr :
    flat.nodes.flatMap Node.operands = List.range' 1 (flat.nodes.length - 1) :=
  operands_of_placeNodes (ofExpr_eq_ok_iff.mp laid).1

/-- **Exactly one node refers to any other than the first.** -/
theorem existsUnique_refersTo {operand : Nat} (behind : 0 < operand)
    (inside : operand < flat.nodes.length) : ∃! index, flat.RefersTo index operand := by
  have all := operands_ofExpr laid
  have listed : operand ∈ flat.nodes.flatMap Node.operands := by
    rw [all, List.mem_range'_1]
    omega
  have distinct : (flat.nodes.flatMap Node.operands).Nodup := by
    rw [all]
    exact List.nodup_range'
  have apart {i j : Nat} {first second : Node} (less : i < j)
      (here : flat.nodes[i]? = some first) (there : flat.nodes[j]? = some second) :
      List.Disjoint first.operands second.operands := by
    obtain ⟨inside, rfl⟩ := List.getElem?_eq_some_iff.mp here
    obtain ⟨inside', rfl⟩ := List.getElem?_eq_some_iff.mp there
    exact List.pairwise_iff_getElem.mp (List.nodup_flatMap.mp distinct).2 i j inside inside' less
  obtain ⟨node, member, refers⟩ := List.mem_flatMap.mp listed
  obtain ⟨index, here⟩ := List.mem_iff_getElem?.mp member
  refine ⟨index, ⟨node, here, refers⟩, ?_⟩
  rintro other ⟨node', there, refers'⟩
  rcases Nat.lt_trichotomy other index with before | same | after
  · exact absurd refers (apart before there here refers')
  · exact same
  · exact absurd refers' (apart after here there refers)

end LaysOut

/-- **How trees are laid out.** Exactly the trees with a variable that is not listed are refused, and
the answer names the first such variable, level by level from left to right. -/
theorem ofExpr_spec (e : Expr) (vars : List Variable) :
    ((∃ failure, ofExpr e vars = .error failure) ↔ ∃ v ∈ e.occurrences, v ∉ vars) ∧
    (∀ failure, ofExpr e vars = .error failure ↔
      ∃ v, failure = .unbound v ∧ FirstMissing vars e.breadthFirst v) ∧
    (∀ flat, ofExpr e vars = .ok flat → flat.LaysOut e vars) ∧
    countNodes vars 0 [e] = (ofExpr e vars).map Flattened.nodes := by
  refine ⟨?_, ?_, ?_, ?_⟩
  · constructor
    · rintro ⟨failure, failed⟩
      by_contra none
      have listed : ∀ v ∈ e.occurrences, v ∈ vars := by
        intro v occurs
        by_contra missing
        exact none ⟨v, occurs, missing⟩
      obtain ⟨flat, laid⟩ := exists_ofExpr listed
      rw [failed] at laid
      cases laid
    · rintro ⟨v, occurs, missing⟩
      cases laid : ofExpr e vars with
      | error failure => exact ⟨failure, rfl⟩
      | ok flat => exact absurd (listed_of_ofExpr laid v occurs) missing
  · intro failure
    have fails := @placeNodes_eq_error_iff vars 1 [e] failure
    rw [← dequeued_singleton, ← fails, ofExpr]
    cases placeNodes vars 1 [e] <;> simp
  · intro flat laid
    refine ⟨length_ofExpr laid, ?_, treeAt?_eq laid, ?_, fun _ => existsUnique_refersTo laid⟩
    · rw [treeAt?_eq laid, ← dequeued_singleton, dequeued_cons]
      rfl
    · rintro index operand ⟨node, here, refers⟩
      exact (ordered_ofExpr laid here).operands operand refers
  · rw [countNodes_eq, List.length_singleton, ofExpr]
    cases placeNodes vars 1 [e] <;> rfl

/-- In a conjunction whose first operand is a negation, the variable on the right comes before that
on the left, and is the one that is missed. With both, the layout is read back. -/
theorem ofExpr_not_and :
    let a : Variable := ⟨'a', by decide⟩
    let b : Variable := ⟨'b', by decide⟩
    let e : Expr := .binary .and (.not (.var a)) (.var b)
    ofExpr e [] = .error (.unbound b) ∧
      ∃ flat, ofExpr e [a, b] = .ok flat ∧ flat.treeAt? [a, b] 0 = some e := by
  intro a b e
  constructor
  · obtain ⟨_, refused, _⟩ := ofExpr_spec e []
    refine (refused _).mpr ⟨b, rfl, [e, .not (.var a)], [.var a], rfl, ?_, by simp⟩
    simp [e]
  · obtain ⟨_, _, laidOut, _⟩ := ofExpr_spec e [a, b]
    obtain ⟨flat, laid⟩ := @exists_ofExpr e [a, b] (by decide)
    exact ⟨flat, laid, (laidOut flat laid).root⟩

end Flattened

end Switching
