/-
**The truth table of a circuit.**

All rows are found with one circuit, whose inputs are set for every row anew, and the outputs of a
row in one pass. Because every row sets all inputs, nothing is left of the rows before: each row
shows the values that its outputs have in the circuit itself, once its inputs are set to the row's
digits. And because failing does not depend on the values of inputs, a table fails as its first row
would, which is as the circuit itself does.

* `rowAlone`: a row as it is found with a circuit of its own;
* `fillRows_eq_mapM`: the rows found with one circuit are those found alone;
* `Tabulates`: the table lists the values of the outputs for all values of the inputs;
* `get?_of_shows`: the circuit of a row, input by input;
* `outputBits_of_shows`: a column is what the rows show in it;
* `truthTable_of_ok`, `truthTable_of_error`: the table where all outputs have values, and where not;
* `truthTable_spec`: when each answer is given.
-/

import Switching.Proofs.Circuit.InputValues
import Switching.Proofs.Table.Rows

namespace Switching

/-- **A row of a circuit's table**: its inputs are the digits of its number, and its outputs are the
values of the circuit's outputs where its inputs are set to these digits. -/
structure CircuitRow.Shows (row : CircuitRow) (c : Circuit) (index : Nat) : Prop where
  length : row.inputs.length = c.inputs.length
  inputs : ∀ k < c.inputs.length,
    row.inputs[k]? = some (index.testBit (c.inputs.length - 1 - k))
  outputs : ∃ set, c.setInputs (c.inputs.zip row.inputs) = .ok set ∧
    List.Forall₂ (fun output value => set.valueOf output = .ok value) c.outputs row.outputs

/-- **The table of a circuit**: its rows in the order of their numbers, and for every output, but
for nothing else, a column of its values from the first row to the last. -/
structure CircuitTable.Tabulates (table : CircuitTable) (c : Circuit) : Prop where
  inputs : table.inputs = c.inputs
  outputs : table.outputs = c.outputs
  length : table.rows.length = 2 ^ c.inputs.length
  row : ∀ i < 2 ^ c.inputs.length, ∃ row, table.rows[i]? = some row ∧ row.Shows c i
  column : ∀ j < c.outputs.length, ∃ values : List Bool,
    table.outputBits j = some (Text.digits values) ∧ values.length = 2 ^ c.inputs.length ∧
    ∀ (i : Nat) (row : CircuitRow), table.rows[i]? = some row → values[i]? = row.outputs[j]?
  beyond : ∀ j, c.outputs.length ≤ j → table.outputBits j = none

namespace Circuit

variable {c : Circuit}

/-! ### Rows -/

/-- A row as it is found with a circuit of its own, output by output. -/
def rowAlone (c : Circuit) (index : Nat) : Except Error CircuitRow :=
  let bits := rowBits index c.inputs.length
  match c.setInputs (c.inputs.zip bits) with
  | .error e => .error e
  | .ok set => (c.outputs.mapM set.valueOf).map fun found => ⟨bits, found⟩

theorem map_fst_zip_rowBits (c : Circuit) (index : Nat) :
    (c.inputs.zip (rowBits index c.inputs.length)).map Prod.fst = c.inputs :=
  List.map_fst_zip (Nat.le_of_eq (length_rowBits ..).symm)

/-- The inputs can be set for a row in every circuit that has the same inputs. -/
theorem DifferAt.exists_set {handles : List Handle} {scratch : Circuit}
    (differ : DifferAt handles c scratch) (index : Nat) :
    ∃ set, scratch.setInputs (c.inputs.zip (rowBits index c.inputs.length)) = .ok set := by
  refine exists_setInputs fun binding member => ?_
  have input : binding.1 ∈ c.inputs := (List.of_mem_zip member).1
  obtain ⟨old, here⟩ := mem_inputs_iff.mp input
  rcases differ.get? binding.1 with same | ⟨_, first, second, _, there⟩
  · exact ⟨old, same ▸ here⟩
  · exact ⟨second, there⟩

/-- The circuit in which the inputs are set for a row differs at its inputs only. -/
theorem differAt_set {set : Circuit} {index : Nat}
    (done : c.setInputs (c.inputs.zip (rowBits index c.inputs.length)) = .ok set) :
    DifferAt c.inputs c set := by
  have differ := differAt_of_setInputs done
  rwa [map_fst_zip_rowBits] at differ

/-- Circuits that differ at the inputs only have the same values once these are set for a row. -/
theorem DifferAt.valueOf_set {scratch set set' : Circuit} (differ : DifferAt c.inputs c scratch)
    (wired : c.Wired) {index : Nat}
    (done : c.setInputs (c.inputs.zip (rowBits index c.inputs.length)) = .ok set)
    (done' : scratch.setInputs (c.inputs.zip (rowBits index c.inputs.length)) = .ok set') :
    set'.valueOf = set.valueOf := by
  have equal : DifferAt [] set set' := by
    rw [← map_fst_zip_rowBits c index] at differ
    exact differ.setInputs done done'
  exact funext (equal.valueOf_eq ((differAt_set done).wired wired))

/-- **The rows found with one circuit are those found alone.** What the circuit was set to before is
set again in every row, and no pass goes on from one row to the next. -/
theorem fillRows_eq_mapM (wired : c.Wired) {scratch : Circuit}
    (differ : DifferAt c.inputs c scratch) (rows : Array CircuitRow) (indices : List Nat) :
    scratch.fillRows c.inputs c.outputs rows indices =
      (indices.mapM c.rowAlone).map fun more => rows ++ more.toArray := by
  induction indices generalizing scratch rows with
  | nil => exact congrArg Except.ok (Array.append_empty).symm
  | cons index later ih =>
    obtain ⟨set, done⟩ := (DifferAt.refl c.inputs c).exists_set index
    obtain ⟨set', done'⟩ := differ.exists_set index
    have changed : DifferAt c.inputs c set' := by
      have again := differAt_of_setInputs done'
      rw [map_fst_zip_rowBits] at again
      exact differ.trans again
    have live : ∀ handle ∈ c.outputs, ∃ element, set'.get? handle = some element := by
      intro handle member
      obtain ⟨element, here, _⟩ := changed.live (mem_outputs_iff.mp member)
      exact ⟨element, here⟩
    have pass : Pass.runAll set' (.initial set') c.outputs = c.outputs.mapM set.valueOf := by
      rw [Pass.runAll_eq_mapM (changed.wired wired) (Marks.Sound.initial set') live,
        differ.valueOf_set wired done done']
    rw [List.mapM_cons, fillRows, rowAlone]
    simp only [done, done', pass]
    cases c.outputs.mapM set.valueOf with
    | error e => rfl
    | ok found =>
      simp only [ih changed]
      cases later.mapM c.rowAlone with
      | error e => rfl
      | ok more => simp [Except.map, bind, Except.bind, pure, Except.pure]

theorem truthTable_eq (wired : c.Wired) (few : c.inputs.length ≤ widestTable) :
    c.truthTable = ((List.range (1 <<< c.inputs.length)).mapM c.rowAlone).map fun rows =>
      ⟨c.inputs, c.outputs, rows⟩ := by
  rw [truthTable, if_neg (Nat.not_lt.mpr few), fillRows_eq_mapM wired (.refl _ c)]
  cases (List.range (1 <<< c.inputs.length)).mapM c.rowAlone with
  | error e => rfl
  | ok rows => simp [Except.map]

/-! ### Rows that are found and rows that are not -/

/-- **The circuit of a row** has each digit of its number at the input for it, and nothing else in it
is changed. -/
theorem get?_of_shows {row : CircuitRow} {index : Nat} (shows : row.Shows c index) {set : Circuit}
    (done : c.setInputs (c.inputs.zip row.inputs) = .ok set) :
    (∀ k handle, c.inputs[k]? = some handle →
      set.get? handle = some (.input (index.testBit (c.inputs.length - 1 - k)))) ∧
    (∀ handle ∉ c.inputs, set.get? handle = c.get? handle) ∧ set.wires = c.wires := by
  have handles : (c.inputs.zip row.inputs).map Prod.fst = c.inputs :=
    List.map_fst_zip (Nat.le_of_eq shows.length.symm)
  have distinct : c.inputs.Nodup := (c.ascending_handlesWhere _).nodup
  refine ⟨fun k handle here => ?_, fun handle apart => ?_, wires_setInputs done⟩
  · have inside := (List.getElem?_eq_some_iff.mp here).1
    have pair : (c.inputs.zip row.inputs)[k]? =
        some (handle, index.testBit (c.inputs.length - 1 - k)) :=
      List.getElem?_zip_eq_some.mpr ⟨here, shows.inputs k inside⟩
    exact get?_setInputs_of_mem done (handles.symm ▸ distinct) (List.mem_of_getElem? pair)
  · exact get?_setInputs_of_not_mem done (handles.symm ▸ apart)

/-- Where the outputs have values, a row shows theirs for its inputs. -/
theorem exists_rowAlone (wired : c.Wired) (few : c.inputs.length ≤ widestTable)
    (all : ∀ output ∈ c.outputs, ∃ value, c.valueOf output = .ok value) (index : Nat) :
    ∃ row, c.rowAlone index = .ok row ∧ row.Shows c index := by
  obtain ⟨set, done⟩ := (DifferAt.refl c.inputs c).exists_set index
  have changed := differAt_set done
  obtain ⟨found, each⟩ : ∃ found, c.outputs.mapM set.valueOf = .ok found := by
    refine exists_mapM_iff.mpr fun output member => ?_
    obtain ⟨value, valued⟩ := all output member
    exact changed.valueOf_eq_ok wired valued
  refine ⟨⟨rowBits index c.inputs.length, found⟩, ?_, length_rowBits .., ?_, set, done,
    mapM_eq_ok_iff.mp each⟩
  · rw [rowAlone]
    simp only [done, each]
    rfl
  · intro k inside
    have fits : c.inputs.length ≤ wordWidth := Nat.le_trans few (by decide)
    rw [getElem?_rowBits inside, bit_eq_testBit fits]

/-- A row fails as the first output without a value does in the circuit itself. -/
theorem rowAlone_eq_error (wired : c.Wired) {e : Error}
    (failed : c.outputs.mapM c.valueOf = .error e) (index : Nat) :
    c.rowAlone index = .error e := by
  obtain ⟨before, output, after, split, valued, stops⟩ := mapM_eq_error_iff.mp failed
  obtain ⟨set, done⟩ := (DifferAt.refl c.inputs c).exists_set index
  have changed := differAt_set done
  have fails : c.outputs.mapM set.valueOf = .error e := by
    refine mapM_eq_error_iff.mpr ⟨before, output, after, split, fun other member => ?_,
      changed.valueOf_eq_error wired stops⟩
    obtain ⟨value, found⟩ := valued other member
    exact changed.valueOf_eq_ok wired found
  rw [rowAlone]
  simp only [done, fails]
  rfl

/-! ### Tables -/

/-- Rows that show the outputs make up the table, columns included. -/
theorem tabulates_of_rows {rows : List CircuitRow} (length : rows.length = 2 ^ c.inputs.length)
    (shows : ∀ i < 2 ^ c.inputs.length, ∃ row, rows[i]? = some row ∧ row.Shows c i) :
    CircuitTable.Tabulates ⟨c.inputs, c.outputs, rows⟩ c := by
  refine ⟨rfl, rfl, length, shows, fun j inside => ?_, fun j outside => ?_⟩
  · refine ⟨rows.map fun row => row.outputs.getD j false, ?_, ?_, fun i row here => ?_⟩
    · rw [CircuitTable.outputBits, CircuitTable.column?, if_pos inside]
      rfl
    · rw [List.length_map, length]
    · obtain ⟨within, _⟩ := List.getElem?_eq_some_iff.mp here
      obtain ⟨other, there, _, _, _, _, values⟩ := shows i (length ▸ within)
      obtain rfl : row = other := Option.some.inj (here.symm.trans there)
      have wide : j < row.outputs.length := values.length_eq ▸ inside
      rw [List.getElem?_map, here, Option.map_some, List.getD_eq_getElem?_getD,
        List.getElem?_eq_getElem wide, Option.getD_some]
  · exact CircuitTable.outputBits_eq_none_iff.mpr outside

/-- A column is what the rows show in it. -/
theorem outputBits_of_shows {table : CircuitTable} (tabulates : table.Tabulates c) {j : Nat}
    (inside : j < c.outputs.length) {value : Nat → Bool}
    (shown : ∀ (i : Nat) (row : CircuitRow), row.Shows c i → row.outputs[j]? = some (value i)) :
    table.outputBits j =
      some (Text.digits ((List.range (2 ^ c.inputs.length)).map value)) := by
  obtain ⟨values, column, size, each⟩ := tabulates.column j inside
  have same : values = (List.range (2 ^ c.inputs.length)).map value := by
    refine List.ext_getElem (by simp [size]) fun i within _ => ?_
    obtain ⟨row, here, shows⟩ := tabulates.row i (size ▸ within)
    have read := each i row here
    rw [shown i row shows, List.getElem?_eq_getElem within, Option.some.injEq] at read
    rw [read, List.getElem_map, List.getElem_range]
  rw [column, same]

theorem truthTable_of_ok (wired : c.Wired) (few : c.inputs.length ≤ widestTable)
    (all : ∀ output ∈ c.outputs, ∃ value, c.valueOf output = .ok value) :
    ∃ table, c.truthTable = .ok table ∧ table.Tabulates c := by
  obtain ⟨rows, filled⟩ :
      ∃ rows, (List.range (2 ^ c.inputs.length)).mapM c.rowAlone = .ok rows := by
    refine exists_mapM_iff.mpr fun index _ => ?_
    obtain ⟨row, found, _⟩ := exists_rowAlone wired few all index
    exact ⟨row, found⟩
  rw [truthTable_eq wired few, Nat.one_shiftLeft, filled]
  refine ⟨_, rfl, tabulates_of_rows ?_ fun i inside => ?_⟩
  · rw [← (mapM_eq_ok_iff.mp filled).length_eq, List.length_range]
  · obtain ⟨row, here, found⟩ := getElem?_of_mapM filled (List.getElem?_range inside)
    obtain ⟨other, found', shows⟩ := exists_rowAlone wired few all i
    cases found.symm.trans found'
    exact ⟨row, here, shows⟩

/-- There is a first row, and it fails. -/
theorem truthTable_of_error (wired : c.Wired) (few : c.inputs.length ≤ widestTable) {e : Error}
    (failed : c.outputs.mapM c.valueOf = .error e) : c.truthTable = .error e := by
  obtain ⟨more, size⟩ := Nat.exists_eq_add_one.mpr (Nat.two_pow_pos c.inputs.length)
  have first : (List.range (2 ^ c.inputs.length)).mapM c.rowAlone = .error e := by
    rw [size, List.range_succ_eq_map]
    exact mapM_eq_error_iff.mpr ⟨[], 0, _, rfl, by simp, rowAlone_eq_error wired failed 0⟩
  rw [truthTable_eq wired few, Nat.one_shiftLeft, first]
  rfl

/-- Outputs do not have too many variables. -/
theorem eq_cycle_of_mapM_valueOf (wired : c.Wired) {e : Error}
    (failed : c.outputs.mapM c.valueOf = .error e) : ∃ place, e = .cycle place := by
  obtain ⟨before, output, after, split, _, stops⟩ := mapM_eq_error_iff.mp failed
  have member : output ∈ c.outputs := by
    rw [split]
    exact List.mem_append_right _ (List.mem_cons_self ..)
  obtain ⟨place, same, _⟩ := (wired.valueOf_eq_error_iff (mem_outputs_iff.mp member)).mp stops
  exact ⟨place, same⟩

/-- **The truth table of a circuit** that edits can build is the table of its outputs. It is refused
for more than twenty inputs. Otherwise it lists the values of the outputs for all values of the
inputs, if every output has a value; and if not, it fails as evaluation does for the first output
that has none. A cycle on which no output depends does not make it fail. -/
theorem truthTable_spec (reachable : c.Reachable) :
    (Ascending c.inputs ∧ ∀ handle, handle ∈ c.inputs ↔
      ∃ value, c.get? handle = some (.input value)) ∧
    (Ascending c.outputs ∧ ∀ handle, handle ∈ c.outputs ↔ c.get? handle = some .output) ∧
    (∀ count limit, c.truthTable = .error (.tooManyVariables count limit) ↔
      20 < c.inputs.length ∧ count = c.inputs.length ∧ limit = 20) ∧
    (c.inputs.length ≤ 20 →
      ((∀ output ∈ c.outputs, ∃ value, c.valueOf output = .ok value) →
        ∃ table, c.truthTable = .ok table ∧ table.Tabulates c) ∧
      (∀ before output after e, c.outputs = before ++ output :: after →
        (∀ other ∈ before, ∃ value, c.valueOf other = .ok value) →
        c.valueOf output = .error e → c.truthTable = .error e) ∧
      ((∀ output ∈ c.outputs, ¬ ∃ place, c.DependsOn output place ∧ c.OnCycle place) →
        ∃ table, c.truthTable = .ok table ∧ table.Tabulates c)) := by
  have wired := reachable.wired
  refine ⟨⟨c.ascending_handlesWhere _, fun handle => mem_inputs_iff⟩,
    ⟨c.ascending_handlesWhere _, fun handle => mem_outputs_iff⟩, fun count limit => ?_,
    fun few => ?_⟩
  · by_cases many : widestTable < c.inputs.length
    · rw [truthTable, if_pos many, Except.error.injEq, Error.tooManyVariables.injEq]
      exact ⟨fun ⟨first, second⟩ => ⟨many, first.symm, second.symm⟩,
        fun ⟨_, first, second⟩ => ⟨first.symm, second.symm⟩⟩
    · have few := Nat.le_of_not_lt many
      refine iff_of_false ?_ fun beyond => many beyond.1
      cases each : c.outputs.mapM c.valueOf with
      | error e =>
        obtain ⟨place, rfl⟩ := eq_cycle_of_mapM_valueOf wired each
        rw [truthTable_of_error wired few each]
        simp
      | ok found =>
        obtain ⟨table, answer, _⟩ := truthTable_of_ok wired few (exists_mapM_iff.mp ⟨found, each⟩)
        rw [answer]
        simp
  · refine ⟨truthTable_of_ok wired few, ?_, fun free => ?_⟩
    · intro before output after e split valued stops
      exact truthTable_of_error wired few
        (mapM_eq_error_iff.mpr ⟨before, output, after, split, valued, stops⟩)
    · refine truthTable_of_ok wired few fun output member => ?_
      rcases valueOf_of_get?_eq_some wired (mem_outputs_iff.mp member) with
        ⟨value, found, _⟩ | ⟨_, _, place, _, blocked⟩
      · exact ⟨value, found⟩
      · exact absurd ⟨place, blocked⟩ (free output member)

/-- Two gates that read each other, one of which an output shows behind another output. -/
def crossedShown : Circuit := crossed.run [.add .output, .connect ⟨2⟩ ⟨4⟩]

theorem inputs_crossed : crossed.inputs = [⟨0⟩] := by cbv

theorem outputs_crossed : crossed.outputs = [⟨3⟩] := by cbv

/-- The output that reads the input shows what this is set to. -/
theorem valueOf_crossed {value : Bool} {set : Circuit}
    (done : crossed.setInputs [(⟨0⟩, value)] = .ok set) : set.valueOf ⟨3⟩ = .ok value := by
  have shown : (crossed.setInputs [(⟨0⟩, value)]).map (·.valueOf ⟨3⟩) = .ok (.ok value) := by
    cases value <;> cbv
  rw [done] at shown
  exact Except.ok.inj shown

/-- So it shows the digit of the row's number. -/
theorem outputs_of_shows_crossed {row : CircuitRow} {index : Nat}
    (shows : row.Shows crossed index) : row.outputs[0]? = some (index.testBit 0) := by
  obtain ⟨length, digits, set, done, each⟩ := shows
  rw [inputs_crossed] at length digits done
  obtain ⟨input, single⟩ := List.length_eq_one_iff.mp length
  have digit := digits 0 (by decide)
  rw [single] at digit done
  cases digit
  rw [outputs_crossed] at each
  obtain ⟨value, rest, found, _, split⟩ := List.forall₂_cons_left_iff.mp each
  rw [valueOf_crossed done] at found
  cases found
  rw [split]
  rfl

/-- Gates that read each other leave the table of the other outputs alone, until an output reads one
of them. The column of the output that reads the input is that of the input. -/
theorem truthTable_crossed :
    (∃ table, crossed.truthTable = .ok table ∧ table.rows.length = 2 ∧
      table.outputBits 0 = some "01" ∧ table.outputBits 1 = none) ∧
      crossedShown.truthTable = .error (.cycle ⟨2⟩) := by
  constructor
  · have reachable : crossed.Reachable := ⟨_, rfl⟩
    have few : crossed.inputs.length ≤ 20 := by simp [inputs_crossed]
    have output : crossed.valueOf ⟨3⟩ = .ok true := by cbv
    obtain ⟨_, _, _, answers⟩ := truthTable_spec reachable
    obtain ⟨table, found, tabulates⟩ := (answers few).1 (by simp [outputs_crossed, output])
    have shown : 0 < crossed.outputs.length := by simp [outputs_crossed]
    have column := outputBits_of_shows tabulates shown fun _ _ => outputs_of_shows_crossed
    refine ⟨table, found, ?_, ?_, tabulates.beyond 1 (by simp [outputs_crossed])⟩
    · rw [tabulates.length, inputs_crossed]
      rfl
    · rw [column, inputs_crossed]
      rfl
  · have reachable : crossedShown.Reachable := ⟨_, run_append ..⟩
    have inputs : crossedShown.inputs = [⟨0⟩] := by cbv
    have outputs : crossedShown.outputs = [⟨3⟩] ++ [⟨4⟩] := by cbv
    have first : crossedShown.valueOf ⟨3⟩ = .ok true := by cbv
    have second : crossedShown.valueOf ⟨4⟩ = .error (.cycle ⟨2⟩) := by cbv
    obtain ⟨_, _, _, answers⟩ := truthTable_spec reachable
    exact (answers (by simp [inputs])).2.1 _ _ _ _ outputs (by simp [first]) second

end Circuit

end Switching
