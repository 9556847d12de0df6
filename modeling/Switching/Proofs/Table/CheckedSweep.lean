/-
**The sweep in place.**

A sweep can fill one array that has a place for every node, from the last node to the first. It then
reads results that may not be written yet, at indices that may not exist. Here every index is
checked, and a sweep that meets a wrong one has no value. In a laid out tree a node refers to later
nodes only and to variables of the list, so all checks succeed, and what is read was written before:
the values are those of `sweep`, and so those of the tree.

* `Node.Within`: the indices of a node are those of later nodes and of variables;
* `ordered_placeNodes`, `ordered_ofExpr`: the nodes of laid out trees are within their bounds;
* `Node.value?_eq`, `fill?_eq`: one node, and the nodes behind an index, filled in place;
* `evaluateChecked?_eq`: the checked sweep succeeds with the value of the unchecked one;
* `valueInRow_mod`: only the last digits of a row's number count;
* `evaluate_ofExpr`: a laid out tree has the values of the tree, under assignments and in rows.
-/

import Switching.Proofs.Table.Solved

namespace Switching

/-! ### Checked indices -/

namespace Node

/-- The value of a node, if everything that it refers to is there. -/
def value? (values : List Bool) (results : Array Bool) : Node → Option Bool
  | const b => some b
  | var place => values[place]?
  | not operand => (results[operand]?).map fun b => !b
  | binary op left right =>
    (results[left]?).bind fun first => (results[right]?).map fun second => op.apply first second

/-- Among `size` nodes over `width` variables, the node at `index` refers to later nodes and to
places of variables. -/
def Within (index size width : Nat) : Node → Prop
  | const _ => True
  | var place => place < width
  | not operand => index < operand ∧ operand < size
  | binary _ left right => (index < left ∧ left < size) ∧ index < right ∧ right < size

end Node

namespace Flattened

/-- Writes the values of the nodes from `index` on into an array, from the last to the first, if no
index on the way is out of range. -/
def fill? (values : List Bool) (index : Nat) : List Node → Array Bool → Option (Array Bool)
  | [], results => some results
  | node :: later, results =>
    (fill? values (index + 1) later results).bind fun results =>
      (node.value? values results).bind fun value =>
        if inside : index < results.size then some (results.set index value inside) else none

/-- The value of the whole tree for a list of values, if no index on the way is out of range. -/
def evaluateChecked? (flat : Flattened) (values : List Bool) : Option Bool :=
  (fill? values 0 flat.nodes (Array.replicate flat.nodes.length false)).bind fun results =>
    results[0]?

end Flattened

/-! ### The order of the nodes -/

theorem Node.within_ofExpr {vars : List Variable} {next : Nat} {e : Expr} {node : Node}
    (placed : Node.ofExpr vars next e = .ok node) {index size : Nat} (before : index < next)
    (room : next + e.operands.length ≤ size) : node.Within index size vars.length := by
  cases e with
  | const value =>
    cases placed
    trivial
  | var v =>
    simp only [Node.ofExpr] at placed
    split at placed
    · rename_i place found
      cases placed
      exact (List.idxOf?_eq_some_iff.mp found).1
    · cases placed
  | not inner =>
    cases placed
    exact ⟨before, room⟩
  | binary op left right =>
    cases placed
    replace room : next + 2 ≤ size := room
    exact ⟨⟨before, by omega⟩, by omega, room⟩

namespace Flattened

/-- **The nodes of a queue refer to later nodes and to listed variables.** A tree that is placed when
`base` nodes are there has its operands behind the whole queue, and all of it becomes nodes. -/
theorem ordered_placeNodes {vars : List Variable} {next : Nat} {queue : List Expr}
    {nodes : List Node} (placed : placeNodes vars next queue = .ok nodes) {base size : Nat}
    (start : next = base + queue.length) (whole : size = base + nodes.length) {i : Nat}
    {node : Node} (here : nodes[i]? = some node) : node.Within (base + i) size vars.length := by
  fun_induction placeNodes vars next queue generalizing base nodes i node with
  | case1 =>
    cases placed
    cases here
  | case2 => cases placed
  | case3 => cases placed
  | case4 next tree queue first made others rest ih =>
    cases placed
    rw [List.length_cons] at start whole
    cases i with
    | zero =>
      obtain rfl : first = node := Option.some.inj here
      have room := length_le_of_placeNodes rest
      rw [List.length_append] at room
      exact Node.within_ofExpr made (by omega) (by omega)
    | succ i =>
      have later : others[i]? = some node := here
      have index : base + (i + 1) = base + 1 + i := by omega
      rw [index]
      refine ih rest ?_ ?_ later
      · rw [List.length_append]
        omega
      · omega

theorem ordered_ofExpr {e : Expr} {vars : List Variable} {flat : Flattened}
    (laid : ofExpr e vars = .ok flat) {index : Nat} {node : Node}
    (here : flat.nodes[index]? = some node) :
    node.Within index flat.nodes.length vars.length := by
  obtain ⟨placed, _⟩ := ofExpr_eq_ok_iff.mp laid
  have within : node.Within (0 + index) flat.nodes.length vars.length :=
    ordered_placeNodes placed rfl (Nat.zero_add _).symm here
  rwa [Nat.zero_add] at within

end Flattened

/-! ### The checked sweep -/

section Values

variable {values : List Bool} {width : Nat} (enough : width ≤ values.length)

include enough

/-- **A node whose indices are right has its value**, where the later nodes have theirs. -/
theorem Node.value?_eq {index size : Nat} {node : Node} (within : node.Within index size width)
    {results : Array Bool} {lookup : Nat → Bool}
    (written : ∀ j, index < j → j < size → results[j]? = some (lookup j)) :
    node.value? values results =
      some (node.value (fun place => values.getD place false) lookup) := by
  cases node with
  | const b => rfl
  | var place =>
    have inside : place < values.length := Nat.lt_of_lt_of_le within enough
    show values[place]? = some (values.getD place false)
    rw [List.getD_eq_getElem?_getD, List.getElem?_eq_getElem inside, Option.getD_some]
  | not operand =>
    show (results[operand]?).map _ = _
    rw [written operand within.1 within.2]
    rfl
  | binary op left right =>
    show (results[left]?).bind _ = _
    rw [written left within.1.1 within.1.2, Option.bind_some,
      written right within.2.1 within.2.2]
    rfl

namespace Flattened

/-- **Nodes filled in place have the values that they are swept to.** The induction is on the nodes:
those behind the first are filled before it. -/
theorem fill?_eq {base size : Nat} {nodes : List Node} (whole : size = base + nodes.length)
    (ordered : ∀ i (node : Node), nodes[i]? = some node → node.Within (base + i) size width) :
    ∃ results, fill? values base nodes (Array.replicate size false) = some results ∧
      results.size = size ∧ ∀ j, base ≤ j → j < size → results[j]? =
        some ((sweep (fun place => values.getD place false) size nodes).getD (size - 1 - j)
          false) := by
  induction nodes generalizing base with
  | nil =>
    refine ⟨_, rfl, Array.size_replicate, fun j behind inside => ?_⟩
    rw [List.length_nil] at whole
    omega
  | cons node later ih =>
    rw [List.length_cons] at whole
    replace whole : size = base + 1 + later.length := by omega
    have behind : ∀ i (node : Node), later[i]? = some node → node.Within (base + 1 + i) size width := by
      intro i node here
      have within := ordered (i + 1) node here
      rwa [Nat.add_comm i 1, ← Nat.add_assoc] at within
    obtain ⟨results, filled, full, written⟩ := ih whole behind
    have value := Node.value?_eq enough (ordered 0 node rfl) written
    have inside : base < results.size := by omega
    refine ⟨_, by rw [fill?, filled, Option.bind_some, value, Option.bind_some, dif_pos inside],
      ?_, ?_⟩
    · rw [Array.size_set, full]
    · intro j reached below
      rcases Nat.eq_or_lt_of_le reached with rfl | after
      · rw [Array.getElem?_set_self, getD_sweep_head whole]
      · rw [Array.getElem?_set_ne _ (Nat.ne_of_lt after), written j after below,
          getD_sweep_tail whole after below]

end Flattened

end Values

namespace Flattened

theorem length_nodes_pos {e : Expr} {vars : List Variable} {flat : Flattened}
    (laid : ofExpr e vars = .ok flat) : 0 < flat.nodes.length :=
  length_le_of_placeNodes (ofExpr_eq_ok_iff.mp laid).1

/-- **The checked sweep succeeds with the value of the unchecked one.** -/
theorem evaluateChecked?_eq {e : Expr} {vars : List Variable} {flat : Flattened}
    (laid : ofExpr e vars = .ok flat) {values : List Bool} (enough : vars.length ≤ values.length) :
    flat.evaluateChecked? values = some (flat.valueAt fun place => values.getD place false) := by
  have ordered : ∀ i (node : Node), flat.nodes[i]? = some node →
      node.Within (0 + i) flat.nodes.length vars.length := by
    intro i node here
    rw [Nat.zero_add]
    exact ordered_ofExpr laid here
  obtain ⟨results, filled, _, written⟩ := fill?_eq enough (Nat.zero_add _).symm ordered
  unfold evaluateChecked?
  rw [filled, Option.bind_some, written 0 (Nat.le_refl _) (length_nodes_pos laid)]
  rfl

/-! ### Values of laid out trees -/

/-- The value that a list of values has for a variable, at its first place in a list of variables. -/
def firstValue (vars : List Variable) (values : List Bool) (v : Variable) : Bool :=
  ((vars.idxOf? v).bind fun place => values[place]?).getD false

/-- Digits of a row's number beyond the first `width` do not matter. -/
theorem valueInRow_mod (flat : Flattened) (index : Nat) :
    flat.valueInRow (index % 2 ^ flat.width) = flat.valueInRow index := by
  unfold valueInRow
  congr 1
  funext place
  by_cases inside : place < flat.width
  · rw [bit_mod_two_pow index inside]
  · rw [decide_eq_false inside, Bool.false_and, Bool.false_and]

/-- An assignment that gives listed variables their first values gives a tree its meaning. -/
theorem value_eq_meaning_firstValue {e : Expr} {vars : List Variable} {values : List Bool}
    (listed : ∀ v ∈ e.occurrences, v ∈ vars) (enough : vars.length ≤ values.length)
    {a : Assignment} (bound : ∀ v ∈ e.occurrences, ∀ place, vars.idxOf? v = some place →
      a.get? v = values[place]?) :
    e.value a = .ok (e.meaning (firstValue vars values)) := by
  refine Expr.value_eq_meaning fun v occurs => ?_
  obtain ⟨place, found⟩ : ∃ place, vars.idxOf? v = some place := by
    cases found : vars.idxOf? v with
    | none => exact absurd (listed v occurs) (List.idxOf?_eq_none_iff.mp found)
    | some place => exact ⟨place, rfl⟩
  have inside : place < values.length :=
    Nat.lt_of_lt_of_le (List.idxOf?_eq_some_iff.mp found).1 enough
  rw [bound v occurs place found, firstValue, found, Option.bind_some,
    List.getElem?_eq_getElem inside, Option.getD_some]

/-- **A laid out tree has the values of the tree.** For values of all listed variables, and more, the
sweep meets no index that is out of range, and gives what the tree gives under any assignment
of the values, each variable taking the one at its first place. Where no variable is repeated, rows
come to the same, and only the last digits of their numbers count. -/
theorem evaluate_ofExpr {e : Expr} {vars : List Variable} {flat : Flattened}
    (laid : ofExpr e vars = .ok flat) :
    (∀ values : List Bool, vars.length ≤ values.length → ∃ result,
      flat.evaluate values = .ok result ∧ flat.evaluateChecked? values = some result ∧
      ∀ a : Assignment, (∀ v ∈ e.occurrences, ∀ place, vars.idxOf? v = some place →
        a.get? v = values[place]?) → e.value a = .ok result) ∧
    (vars.Nodup → ∀ index,
      e.value (assignmentAt vars index) = .ok (flat.valueInRow index) ∧
      flat.evaluateChecked? (rowBits index vars.length) = some (flat.valueInRow index) ∧
      flat.valueInRow (index % 2 ^ vars.length) = flat.valueInRow index) := by
  have listed := listed_of_ofExpr laid
  have width := width_ofExpr laid
  have swept (values : List Bool) (enough : vars.length ≤ values.length) :
      flat.evaluate values = .ok (flat.valueAt fun place => values.getD place false) :=
    if_pos (width ▸ enough)
  constructor
  · intro values enough
    refine ⟨_, swept values enough, evaluateChecked?_eq laid enough, fun a bound => ?_⟩
    rw [value_eq_meaning_firstValue listed enough bound, valueAt_ofExpr ?_ laid]
    intro v place found
    rw [firstValue, found, Option.bind_some, List.getD_eq_getElem?_getD]
  · intro distinct index
    refine ⟨value_assignmentAt distinct listed laid index, ?_, width ▸ valueInRow_mod flat index⟩
    have enough : vars.length ≤ (rowBits index vars.length).length :=
      Nat.le_of_eq (length_rowBits ..).symm
    have row := evaluate_rowBits flat index
    rw [width, swept _ enough, Except.ok.injEq] at row
    rw [evaluateChecked?_eq laid enough, row]

/-- Values behind the last variable and leading digits of a row's number are not read. -/
theorem evaluate_and_not :
    ∃ flat, ofExpr (.binary .and (.var ⟨'a', by decide⟩) (.not (.var ⟨'b', by decide⟩)))
        [⟨'a', by decide⟩, ⟨'b', by decide⟩] = .ok flat ∧
      flat.evaluateChecked? [true, false, true] = some true ∧ flat.valueInRow 6 = true := by
  obtain ⟨flat, laid⟩ := @exists_ofExpr
    (.binary .and (.var ⟨'a', by decide⟩) (.not (.var ⟨'b', by decide⟩)))
    [⟨'a', by decide⟩, ⟨'b', by decide⟩] (by decide)
  obtain ⟨values, rows⟩ := evaluate_ofExpr laid
  obtain ⟨result, _, checked, same⟩ := values [true, false, true] (by decide)
  have bound : ∀ v ∈ [(⟨'a', by decide⟩ : Variable), ⟨'b', by decide⟩], ∀ place,
      [⟨'a', by decide⟩, ⟨'b', by decide⟩].idxOf? v = some place →
      (assignmentAt [⟨'a', by decide⟩, ⟨'b', by decide⟩] 2).get? v =
        [true, false, true][place]? := by
    intro v member place found
    rcases List.mem_cons.mp member with rfl | last
    · cases found
      rfl
    · cases List.mem_singleton.mp last
      cases found
      rfl
  have value : Except.ok true = Except.ok result := same _ bound
  have row : Except.ok true = Except.ok (flat.valueInRow 6) := (rows (by decide) 6).1
  cases value
  exact ⟨flat, laid, checked, (Except.ok.inj row).symm⟩

/-- A repeated variable takes its first digit in a sweep, and its last one in an assignment. -/
example :
    (ofExpr (.var ⟨'a', by decide⟩) [⟨'a', by decide⟩, ⟨'a', by decide⟩]).map
        (·.valueInRow 1) = .ok false ∧
      (Expr.var ⟨'a', by decide⟩).value
        (assignmentAt [⟨'a', by decide⟩, ⟨'a', by decide⟩] 1) = .ok true := by
  decide +kernel

end Flattened

end Switching
