/-
**Input values do not decide success.**

Whether evaluation finds values, and which element of a cycle it names if it does not, follows from
the wires and from the kinds of the elements: an element reads all its sources, whatever the values of
the first ones are. A truth table sets every input itself, and so shows nothing of the values that
were there.

* `FailAlike`: both succeed, or both fail for the same reason;
* `DifferAt.failAlike_valueOf`, `DifferAt.failAlike_values`: so does evaluation in circuits that
  differ in the values of inputs only;
* `DifferAt.rowAlone_eq`, `DifferAt.truthTable_eq`: their truth tables are the same;
* `differAt_edit`, `differAt_run`: setting and toggling inputs changes their values only;
* `inputs_indifferent`: the values of the inputs decide values only.
-/

import Switching.Proofs.Circuit.Tabulation

namespace Switching

/-! ### Succeeding and failing alike -/

/-- **Both succeed, or both fail for the same reason.** -/
inductive FailAlike {Result : Type} : Except Error Result → Except Error Result → Prop
  | succeed (one other : Result) : FailAlike (.ok one) (.ok other)
  | fail (e : Error) : FailAlike (.error e) (.error e)

namespace FailAlike

variable {Item Result Shown : Type} {one other : Except Error Result}

theorem eq_error {e : Error} (alike : FailAlike (.error e) other) : other = .error e := by
  cases alike with
  | fail _ => rfl

theorem bind (alike : FailAlike one other) {f g : Result → Except Error Shown}
    (next : ∀ first second, FailAlike (f first) (g second)) :
    FailAlike (one >>= f) (other >>= g) := by
  cases alike with
  | succeed first second => exact next first second
  | fail e => exact .fail e

theorem map (alike : FailAlike one other) (f g : Result → Shown) :
    FailAlike (one.map f) (other.map g) := by
  cases alike with
  | succeed first second => exact .succeed (f first) (g second)
  | fail e => exact .fail e

theorem mapM {items : List Item} {f g : Item → Except Error Result}
    (each : ∀ item, FailAlike (f item) (g item)) : FailAlike (items.mapM f) (items.mapM g) := by
  induction items with
  | nil => exact .succeed [] []
  | cons item items ih =>
    rw [List.mapM_cons, List.mapM_cons]
    exact (each item).bind fun _ _ => ih.bind fun _ _ => .succeed _ _

end FailAlike

/-- Whether the edit sets or toggles an input. -/
def Edit.setsInput : Edit → Bool
  | .setInput _ _ | .toggleInput _ => true
  | _ => false

namespace Circuit

variable {c d : Circuit}

namespace DifferAt

variable {handles : List Handle}

/-! ### Evaluation -/

theorem failAlike_valueOf (differ : DifferAt handles c d) (wired : c.Wired) (handle : Handle) :
    FailAlike (c.valueOf handle) (d.valueOf handle) := by
  cases answer : c.valueOf handle with
  | ok value =>
    obtain ⟨other, found⟩ := differ.valueOf_eq_ok wired answer
    rw [found]
    exact .succeed value other
  | error e =>
    rw [differ.valueOf_eq_error wired answer]
    exact .fail e

/-- The same elements are listed, if it does not matter for that which value an input has. -/
theorem handlesWhere_eq (differ : DifferAt handles c d) {kind : Element → Bool}
    (inputs : ∀ first second, kind (.input first) = kind (.input second)) :
    c.handlesWhere kind = d.handlesWhere kind := by
  refine (c.ascending_handlesWhere kind).eq_of_mem_iff (d.ascending_handlesWhere kind) ?_
  intro handle
  rw [mem_handlesWhere_iff, mem_handlesWhere_iff]
  rcases differ.get? handle with same | ⟨_, first, second, one, other⟩
  · rw [same]
  · simp only [one, other, Option.some.injEq, exists_eq_left', inputs first second]

theorem inputs_eq (differ : DifferAt handles c d) : c.inputs = d.inputs :=
  differ.handlesWhere_eq fun _ _ => rfl

theorem outputs_eq (differ : DifferAt handles c d) : c.outputs = d.outputs :=
  differ.handlesWhere_eq fun _ _ => rfl

theorem failAlike_values (differ : DifferAt handles c d) (wired : c.Wired) :
    FailAlike c.values d.values := by
  have same : c.handles = d.handles := by
    rw [← handlesWhere_true, ← handlesWhere_true]
    exact differ.handlesWhere_eq fun _ _ => rfl
  rw [wired.values_eq, (differ.wired wired).values_eq, same]
  exact (FailAlike.mapM (differ.failAlike_valueOf wired)).map _ _

/-! ### Truth tables -/

/-- A row sets all inputs in which the circuits differ. -/
theorem rowAlone_eq (differ : DifferAt c.inputs c d) (wired : c.Wired) (index : Nat) :
    d.rowAlone index = c.rowAlone index := by
  obtain ⟨set, done⟩ := (DifferAt.refl c.inputs c).exists_set index
  obtain ⟨set', done'⟩ := differ.exists_set index
  rw [rowAlone, rowAlone, ← differ.inputs_eq, ← differ.outputs_eq]
  simp only [done, done', differ.valueOf_set wired done done']

/-- **The truth tables are the same.** -/
theorem truthTable_eq (differ : DifferAt c.inputs c d) (wired : c.Wired) :
    d.truthTable = c.truthTable := by
  by_cases many : widestTable < c.inputs.length
  · rw [truthTable, truthTable, ← differ.inputs_eq, if_pos many, if_pos many]
  · have few := Nat.le_of_not_lt many
    rw [Circuit.truthTable_eq wired few,
      Circuit.truthTable_eq (differ.wired wired) (differ.inputs_eq ▸ few), ← differ.inputs_eq,
      ← differ.outputs_eq, funext (differ.rowAlone_eq wired)]

end DifferAt

/-! ### Setting inputs -/

theorem DifferAt.of_setInput (differ : DifferAt c.inputs c d) {changed : Circuit}
    {handle : Handle} {value : Bool} (done : d.setInput handle value = .ok changed) :
    DifferAt c.inputs c changed := by
  refine differ.trans ((differAt_of_setInput done).mono fun other member => ?_)
  rw [List.mem_singleton.mp member, differ.inputs_eq]
  exact mem_inputs_iff.mpr (isInput_of_setInput done)

/-- **An edit that sets an input**, or fails to, changes no more than the values of inputs. -/
theorem differAt_edit (differ : DifferAt c.inputs c d) {change : Edit}
    (sets : change.setsInput = true) : DifferAt c.inputs c (d.edit change) := by
  rcases d.edited_or_eq change with edited | same
  · cases edited with
    | setInput done => exact differ.of_setInput done
    | toggleInput done => exact differ.of_setInput done
    | add _ => cases sets
    | connect _ => cases sets
    | remove _ => cases sets
    | clear => cases sets
  · rw [same]
    exact differ

/-- Neither do several such edits. -/
theorem differAt_run (differ : DifferAt c.inputs c d) {edits : List Edit}
    (set : ∀ change ∈ edits, change.setsInput = true) : DifferAt c.inputs c (d.run edits) := by
  induction edits generalizing d with
  | nil => exact differ
  | cons change edits ih =>
    obtain ⟨here, there⟩ := List.forall_mem_cons.mp set
    exact ih (differAt_edit differ here) there

/-! ### The values of inputs decide values only -/

/-- What circuits answer alike that differ in the values of inputs only. -/
structure AnswersAlike (c d : Circuit) : Prop where
  /-- Every element has a value in both, or the same error is answered for it. -/
  valueOf : ∀ handle, FailAlike (c.valueOf handle) (d.valueOf handle)
  values : FailAlike c.values d.values
  truthTable : c.truthTable = d.truthTable

/-- **The values of the inputs decide values only.** A circuit that edits can build and one that
differs from it in the values of inputs only fail alike for every element, fail alike for all elements
together, and have the same truth table. So the table stays the same through any setting and toggling
of inputs, whether it succeeds or not. -/
theorem inputs_indifferent (reachable : c.Reachable) :
    (∀ d, DifferAt c.inputs c d → AnswersAlike c d) ∧
    ∀ edits, (∀ change ∈ edits, change.setsInput = true) →
      (c.run edits).truthTable = c.truthTable := by
  have wired := reachable.wired
  refine ⟨fun d differ => ?_, fun edits set => ?_⟩
  · exact ⟨differ.failAlike_valueOf wired, differ.failAlike_values wired,
      (differ.truthTable_eq wired).symm⟩
  · exact (differAt_run (.refl _ c) set).truthTable_eq wired

/-- Toggling the input before two gates that read each other changes neither which of them is named
nor the truth table. -/
theorem crossed_toggled :
    let toggled := crossed.run [.toggleInput ⟨0⟩]
    crossed.valueOf ⟨3⟩ = .ok true ∧ toggled.valueOf ⟨3⟩ = .ok false ∧
      toggled.valueOf ⟨2⟩ = .error (.cycle ⟨2⟩) ∧ toggled.truthTable = crossed.truthTable := by
  have reachable : crossed.Reachable := ⟨_, rfl⟩
  have sets : ∀ change ∈ [Edit.toggleInput ⟨0⟩], change.setsInput = true := by simp [Edit.setsInput]
  have gate : crossed.valueOf ⟨2⟩ = .error (.cycle ⟨2⟩) := by cbv
  obtain ⟨alike, kept⟩ := inputs_indifferent reachable
  have answers := alike _ (differAt_run (.refl _ crossed) sets)
  refine ⟨by cbv, by cbv, ?_, kept _ sets⟩
  exact (gate ▸ answers.valueOf ⟨2⟩).eq_error

end Circuit

end Switching
