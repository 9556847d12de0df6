/-
**The truth table of an expression.**

A table's results are found by sweeping over a flattened tree, with the row's number as its values;
its assignments are built apart from them. Both come to the same: the result of a row is the value of
the tree under the row's assignment. An expression has a table exactly if it has variables, and no
more than the solver takes.

* `value_assignmentAt`: the swept value in a row is the value under its assignment;
* `Tabulates`: the table lists the values of the expression under all assignments in row order;
* `Tabulates.results`: its results are the meanings of the expression for the digits of the numbers;
* `solveExpr_cases`: the three answers of a solver;
* `solveExpr_spec`: when each of them is given, for every cap that solvers have.
-/

import Switching.Proofs.Table.Layout
import Switching.Proofs.Table.Rows
import Switching.Solver

namespace Switching

/-! ### Rows -/

/-- **The swept value in a row is the value under the row's assignment.** -/
theorem value_assignmentAt {e : Expr} {vars : List Variable} (distinct : vars.Nodup)
    (listed : ∀ v ∈ e.occurrences, v ∈ vars) {flat : Flattened}
    (laid : Flattened.ofExpr e vars = .ok flat) (index : Nat) :
    e.value (assignmentAt vars index) = .ok (flat.valueInRow index) := by
  let valuation : Variable → Bool := fun v => ((assignmentAt vars index).get? v).getD false
  have bound (place : Nat) (v : Variable) (here : vars[place]? = some v) :
      (assignmentAt vars index).get? v = some (valuation v) ∧
        bit index vars.length place = valuation v := by
    have found := get?_assignmentAt distinct index here
    have same : valuation v = bit index vars.length place := by
      show ((assignmentAt vars index).get? v).getD false = _
      rw [found, Option.getD_some]
    exact ⟨by rw [found, same], same.symm⟩
  have agree : ∀ v place, vars.idxOf? v = some place →
      bit index vars.length place = valuation v := by
    intro v place found
    obtain ⟨inside, here, _⟩ := List.idxOf?_eq_some_iff.mp found
    exact (bound place v (List.getElem?_eq_some_iff.mpr ⟨inside, here⟩)).2
  rw [Flattened.valueInRow_ofExpr laid agree]
  refine Expr.value_eq_meaning fun v occurs => ?_
  obtain ⟨place, here⟩ := List.mem_iff_getElem?.mp (listed v occurs)
  exact (bound place v here).1

/-- **The table of an expression**: a row for every assignment of its variables, in the order of
their numbers, each with the value of the expression as its result. -/
structure TruthTable.Tabulates (table : TruthTable) (e : Expr) : Prop where
  vars : table.vars = e.vars
  length : table.rows.length = 2 ^ e.vars.length
  row : ∀ i < 2 ^ e.vars.length, ∃ row, table.rows[i]? = some row ∧
    row.assignment.vars = e.vars ∧
    (∀ k v, e.vars[k]? = some v →
      row.assignment.get? v = some (i.testBit (e.vars.length - 1 - k))) ∧
    row.assignment.index = i ∧ e.value row.assignment = .ok row.result

/-- **The results are the meanings of the expression** for the digits of the row numbers. -/
theorem TruthTable.Tabulates.results {table : TruthTable} {e : Expr} (tabulates : table.Tabulates e) :
    table.results = (List.range (2 ^ e.vars.length)).map fun i =>
      e.meaning fun v => i.testBit (e.vars.length - 1 - e.vars.idxOf v) := by
  refine List.ext_getElem? fun i => ?_
  rw [TruthTable.results, List.getElem?_map, List.getElem?_map]
  by_cases inside : i < 2 ^ e.vars.length
  · obtain ⟨row, here, _, bound, _, value⟩ := tabulates.row i inside
    have meant := Expr.value_eq_meaning fun v occurs =>
      bound _ v (List.getElem?_idxOf (Expr.mem_vars_iff.mpr occurs))
    rw [value, Except.ok.injEq] at meant
    rw [here, List.getElem?_range inside, Option.map_some, Option.map_some, meant]
  · have outside := Nat.le_of_not_lt inside
    rw [List.getElem?_eq_none (tabulates.length ▸ outside), List.getElem?_eq_none]
    · rfl
    · rwa [List.length_range]

theorem Expr.nodup_vars (e : Expr) : e.vars.Nodup := nodup_eraseDups e.occurrences

theorem Expr.vars_eq_nil_iff {e : Expr} : e.vars = [] ↔ e.occurrences = [] := by
  rw [List.eq_nil_iff_forall_not_mem, List.eq_nil_iff_forall_not_mem]
  exact forall_congr' fun v => not_congr mem_vars_iff

/-! ### Tables -/

theorem Solver.tabulate_vars (e : Expr) :
    ∃ table, tabulate e e.vars = .ok table ∧ table.Tabulates e := by
  have listed : ∀ v ∈ e.occurrences, v ∈ e.vars := fun v occurs => Expr.mem_vars_iff.mpr occurs
  obtain ⟨flat, laid⟩ := Flattened.exists_ofExpr listed
  refine ⟨_, by rw [tabulate, laid], rfl, ?_, ?_⟩
  · rw [TruthTable.length_rows_tabulate, Nat.one_shiftLeft]
  intro i inside
  have row := TruthTable.getElem?_rows_tabulate e.vars (fun index _ => flat.valueInRow index)
    (by rwa [Nat.one_shiftLeft])
  refine ⟨_, row, vars_assignmentAt e.nodup_vars i, ?_, ?_,
    value_assignmentAt e.nodup_vars listed laid i⟩
  · intro k v here
    exact get?_assignmentAt_eq_testBit e.nodup_vars i here
  · show (assignmentAt e.vars i).index = i
    rw [index_assignmentAt e.nodup_vars, Nat.mod_eq_of_lt inside]

/-- The three answers of a solver. -/
theorem Solver.solveExpr_cases (solver : Solver) (e : Expr) :
    (e.occurrences = [] ∧ solver.solveExpr e = .error .noVariables) ∨
    (e.occurrences ≠ [] ∧ solver.cap < e.vars.length ∧
      solver.solveExpr e = .error (.tooManyVariables e.vars.length solver.cap)) ∨
    e.occurrences ≠ [] ∧ e.vars.length ≤ solver.cap ∧
      ∃ table, solver.solveExpr e = .ok table ∧ table.Tabulates e := by
  unfold solveExpr accept
  by_cases none : e.vars = []
  · exact .inl ⟨Expr.vars_eq_nil_iff.mp none, by rw [if_pos none]⟩
  · have some : e.occurrences ≠ [] := fun empty => none (Expr.vars_eq_nil_iff.mpr empty)
    rw [if_neg none]
    by_cases many : solver.cap < e.vars.length
    · exact .inr (.inl ⟨some, many, by rw [if_pos many]⟩)
    · rw [if_neg many]
      exact .inr (.inr ⟨some, Nat.le_of_not_lt many, tabulate_vars e⟩)

/-- **The truth table of an expression is its meaning.** Whatever number of variables a solver takes,
it refuses exactly the expressions without variables and those with more distinct ones than it takes,
and tabulates all others; no variable is ever without a value. -/
theorem solveExpr_spec {cap : Nat} (positive : 1 ≤ cap) (bounded : cap ≤ 20) (e : Expr) :
    ∃ solver, Solver.ofCap cap = .ok solver ∧
      (e.vars.Nodup ∧ ∀ v, v ∈ e.vars ↔ v ∈ e.occurrences) ∧
      (solver.solveExpr e = .error .noVariables ↔ e.occurrences = []) ∧
      (∀ count limit, solver.solveExpr e = .error (.tooManyVariables count limit) ↔
        cap < e.vars.length ∧ count = e.vars.length ∧ limit = cap) ∧
      (e.occurrences ≠ [] → e.vars.length ≤ cap →
        ∃ table, solver.solveExpr e = .ok table ∧ table.Tabulates e) ∧
      ∀ v, solver.solveExpr e ≠ .error (.unbound v) := by
  refine ⟨⟨cap, positive, bounded⟩, dif_pos ⟨positive, bounded⟩,
    ⟨e.nodup_vars, fun v => Expr.mem_vars_iff⟩, ?_⟩
  rcases Solver.solveExpr_cases ⟨cap, positive, bounded⟩ e with
    ⟨empty, answer⟩ | ⟨some, many, answer⟩ | ⟨some, few, table, answer, tabulates⟩
  · rw [answer]
    refine ⟨iff_of_true rfl empty, ?_, fun some => absurd empty some, by simp⟩
    intro count limit
    have none : e.vars.length = 0 := by rw [Expr.vars_eq_nil_iff.mpr empty, List.length_nil]
    exact iff_of_false (by simp) (by omega)
  · rw [answer]
    refine ⟨iff_of_false (by simp) some, ?_, fun _ few => absurd many (Nat.not_lt.mpr few),
      by simp⟩
    intro count limit
    constructor
    · intro same
      cases same
      exact ⟨many, rfl, rfl⟩
    · rintro ⟨_, rfl, rfl⟩
      rfl
  · rw [answer]
    refine ⟨iff_of_false (by simp) some, ?_, fun _ _ => ⟨table, rfl, tabulates⟩, by simp⟩
    intro count limit
    exact iff_of_false (by simp) fun many => absurd many.1 (Nat.not_lt.mpr few)

/-- Two variables give four rows, of which the second one, where the negated variable alone is true,
has the result false. -/
theorem solveExpr_or_not :
    ∃ solver table, Solver.ofCap 4 = .ok solver ∧
      solver.solveExpr (.binary .or (.var ⟨'a', by decide⟩) (.not (.var ⟨'b', by decide⟩))) =
        .ok table ∧ table.rows.length = 4 ∧ table.results = [true, false, true, true] := by
  have four : 1 ≤ 4 ∧ 4 ≤ 20 := by decide
  obtain ⟨solver, made, _, _, _, solved, _⟩ := solveExpr_spec four.1 four.2
    (.binary .or (.var ⟨'a', by decide⟩) (.not (.var ⟨'b', by decide⟩)))
  obtain ⟨table, answer, tabulates⟩ := solved (by decide) (by decide)
  exact ⟨solver, table, made, answer, tabulates.length.trans (by decide),
    tabulates.results.trans (by decide)⟩

end Switching
