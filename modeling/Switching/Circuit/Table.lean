/-
**Truth tables of circuits.**

The values of all outputs for all values of the inputs. Both are in the order of their handles, and
the first input changes slowest.

* `fillRows`: the rows, found with one circuit whose inputs are set again and again;
* `truthTable`: the table, for at most twenty inputs;
* `outputBits_eq_none_iff`: there is a column for each output;
* `get?_setInputs_of_mem`, `get?_setInputs_of_not_mem`: inputs that are set have their values, and
  everything else stays as it is.
-/

import Switching.Circuit.Value
import Switching.Row

namespace Switching

/-- A row of a circuit's truth table. -/
structure CircuitRow where
  inputs : List Bool
  outputs : List Bool
deriving DecidableEq

/-- The truth table of a circuit. -/
structure CircuitTable where
  /-- The inputs, the slowest first. -/
  inputs : List Handle
  outputs : List Handle
  rows : List CircuitRow
deriving DecidableEq

namespace CircuitTable

/-- The values of an output from the first row to the last. -/
def column? (table : CircuitTable) (place : Nat) : Option (List Bool) :=
  if place < table.outputs.length then
    some (table.rows.map fun row => row.outputs.getD place false)
  else none

/-- The values of an output as digits. -/
def outputBits (table : CircuitTable) (place : Nat) : Option String :=
  (table.column? place).map Text.digits

/-- A line of two groups of words. -/
def line (left right : List String) : String :=
  " ".intercalate left ++ " | " ++ " ".intercalate right ++ "\n"

/-- The line of handles. -/
def headerLine (table : CircuitTable) : String :=
  line (table.inputs.map Handle.text) (table.outputs.map Handle.text)

/-- The words for truth values. -/
def cells (values : List Bool) : List String := values.map fun value => Text.digits [value]

/-- The line of a row. -/
def rowLine (row : CircuitRow) : String := line (cells row.inputs) (cells row.outputs)

/-- The table as text: the handles, and a line for each row. -/
def text (table : CircuitTable) : String :=
  table.headerLine ++ String.join (table.rows.map rowLine)

/-- There is a column for each output. -/
theorem outputBits_eq_none_iff {table : CircuitTable} {place : Nat} :
    table.outputBits place = none ↔ table.outputs.length ≤ place := by
  simp [outputBits, column?]

end CircuitTable

namespace Circuit

/-- Sets inputs one after another. -/
def setInputs (c : Circuit) : List (Handle × Bool) → Except Error Circuit
  | [] => .ok c
  | (handle, value) :: others =>
    match c.setInput handle value with
    | .error e => .error e
    | .ok changed => changed.setInputs others

/-- Puts the rows with these numbers behind those that are there. One circuit serves for all of
them: its inputs are set for every row anew. -/
def fillRows (c : Circuit) (inputs outputs : List Handle) (rows : Array CircuitRow) :
    List Nat → Except Error (Array CircuitRow)
  | [] => .ok rows
  | index :: later =>
    let bits := rowBits index inputs.length
    match c.setInputs (inputs.zip bits) with
    | .error e => .error e
    | .ok set =>
      match Pass.runAll set (.initial set) outputs with
      | .error e => .error e
      | .ok found => set.fillRows inputs outputs (rows.push ⟨bits, found⟩) later

/-- The truth table. The circuit's own input values do not matter. -/
def truthTable (c : Circuit) : Except Error CircuitTable :=
  if widestTable < c.inputs.length then
    .error (.tooManyVariables c.inputs.length widestTable)
  else
    match c.fillRows c.inputs c.outputs #[] (List.range (1 <<< c.inputs.length)) with
    | .error e => .error e
    | .ok rows => .ok ⟨c.inputs, c.outputs, rows.toList⟩

/-! ### Inputs that are set -/

variable {c changed : Circuit} {handle : Handle} {value : Bool} {bindings : List (Handle × Bool)}

theorem setInputs_cons_eq_ok_iff :
    c.setInputs ((handle, value) :: bindings) = .ok changed ↔
      ∃ set, c.setInput handle value = .ok set ∧ set.setInputs bindings = .ok changed := by
  rw [setInputs]
  cases c.setInput handle value <;> simp

theorem wires_setInputs (done : c.setInputs bindings = .ok changed) : changed.wires = c.wires := by
  induction bindings generalizing c with
  | nil =>
    cases done
    rfl
  | cons binding others ih =>
    obtain ⟨set, first, rest⟩ := setInputs_cons_eq_ok_iff.mp done
    rw [ih rest, wires_setInput first]

/-- What is not set stays as it is. -/
theorem get?_setInputs_of_not_mem (done : c.setInputs bindings = .ok changed)
    (apart : handle ∉ bindings.map Prod.fst) : changed.get? handle = c.get? handle := by
  induction bindings generalizing c with
  | nil =>
    cases done
    rfl
  | cons binding others ih =>
    obtain ⟨set, first, rest⟩ := setInputs_cons_eq_ok_iff.mp done
    obtain ⟨other, later⟩ := List.ne_and_not_mem_of_not_mem_cons apart
    rw [ih rest later, get?_setInput first, if_neg other]

/-- **Inputs that are set have their values**, where none is set twice. -/
theorem get?_setInputs_of_mem (done : c.setInputs bindings = .ok changed)
    (distinct : (bindings.map Prod.fst).Nodup) (member : (handle, value) ∈ bindings) :
    changed.get? handle = some (.input value) := by
  induction bindings generalizing c with
  | nil => cases member
  | cons binding others ih =>
    obtain ⟨set, first, rest⟩ := setInputs_cons_eq_ok_iff.mp done
    obtain ⟨new, distinct⟩ := List.nodup_cons.mp distinct
    rcases List.mem_cons.mp member with here | later
    · cases here
      rw [get?_setInputs_of_not_mem rest new, get?_setInput first, if_pos rfl]
    · exact ih rest distinct later

end Circuit

end Switching
