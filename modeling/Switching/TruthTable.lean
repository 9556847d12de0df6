/-
**Truth tables.**

A truth table lists all assignments of its variables in row order, each with a result.

* `length_rows_tabulate`: a table over `n` variables has `1 <<< n` rows;
* `vars_tabulate`: it keeps its variables;
* `getElem?_rows_tabulate`: its rows stand at their numbers;
* `results_tabulate`: its results are those of the tabulated function, row by row.
-/

import Switching.Gate.Inputs
import Switching.Row

namespace Switching

/-- A row of a truth table. -/
structure TableRow where
  assignment : Assignment
  result : Bool
deriving DecidableEq

/-- A truth table. -/
structure TruthTable where
  /-- The variables, the slowest first. -/
  vars : List Variable
  rows : List TableRow
deriving DecidableEq

namespace TruthTable

/-- The row of a function at a row number. -/
def rowAt (vars : List Variable) (f : Nat → Assignment → Bool) (index : Nat) : TableRow :=
  let assignment := assignmentAt vars index
  ⟨assignment, f index assignment⟩

/-- The table of a function of the row number and the assignment. It is meant for fewer than `wordWidth`
variables: for more, the number of rows fits no machine word, and the shift that computes it there
overflows. -/
def tabulate (vars : List Variable) (f : Nat → Assignment → Bool) : TruthTable :=
  ⟨vars, (List.range (1 <<< vars.length)).map (rowAt vars f)⟩

/-- The number of rows. -/
def size (table : TruthTable) : Nat := table.rows.length

/-- The results from the first row to the last. -/
def results (table : TruthTable) : List Bool := table.rows.map TableRow.result

/-- The results as digits. -/
def resultBits (table : TruthTable) : String := Text.digits table.results

/-- The table of a gate over the variables `a` and `b`, or `a` alone. -/
def ofGate (gate : Gate) : TruthTable :=
  let vars := [⟨'a', by decide⟩, ⟨'b', by decide⟩]
  tabulate (vars.take gate.arity) fun _ assignment =>
    gate.apply (assignment.values.getD 0 false) (assignment.values.getD 1 false)

/-! ### The printed table -/

/-- Characters with single spaces between them. -/
def spaced : List Char → List Char
  | [] => []
  | [c] => [c]
  | c :: rest => c :: ' ' :: spaced rest

/-- The line of variable names. -/
def headerLine (vars : List Variable) : List Char :=
  spaced (vars.map Variable.name) ++ [' ', '|', ' ', 'f', '\n']

/-- The line that rules off the names. -/
def ruleLine (vars : List Variable) : List Char :=
  List.replicate (spaced (vars.map Variable.name)).length '-' ++ ['-', '+', '-', '-', '\n']

/-- The line of a row. -/
def rowLine (row : TableRow) : List Char :=
  spaced (row.assignment.values.map Text.digit) ++ [' ', '|', ' ', Text.digit row.result, '\n']

/-- The table as text: names, a rule, and a line for each row. -/
def text (table : TruthTable) : String :=
  String.ofList
    (headerLine table.vars ++ ruleLine table.vars ++ table.rows.flatMap rowLine)

/-! ### Laws -/

@[simp] theorem vars_tabulate (vars : List Variable) (f : Nat → Assignment → Bool) :
    (tabulate vars f).vars = vars := rfl

@[simp] theorem length_rows_tabulate (vars : List Variable) (f : Nat → Assignment → Bool) :
    (tabulate vars f).rows.length = 1 <<< vars.length := by
  simp [tabulate]

/-- The rows stand at their numbers. -/
theorem getElem?_rows_tabulate (vars : List Variable) (f : Nat → Assignment → Bool) {index : Nat}
    (inside : index < 1 <<< vars.length) :
    (tabulate vars f).rows[index]? = some (rowAt vars f index) := by
  rw [tabulate, List.getElem?_map, List.getElem?_range inside]
  rfl

theorem results_tabulate (vars : List Variable) (f : Nat → Assignment → Bool) :
    (tabulate vars f).results =
      (List.range (1 <<< vars.length)).map fun index => f index (assignmentAt vars index) := by
  simp [results, tabulate, rowAt]

end TruthTable

end Switching
