/-
**Circuit elements.**

A circuit is built from inputs, which hold a value, from gates and from outputs, which show one.

* `reads_sublist`: an element reads some of the wires that end at it, in their order;
* `value_and`, `value_or`, `value_not`: the values of the gates.
-/

import Switching.Circuit.Handle
import Switching.Gate.Basic
import Switching.Text.Digit

namespace Switching

/-- A gate of a circuit. -/
inductive BasicGate where
  | and
  | or
  | not
deriving DecidableEq

namespace BasicGate

/-- The logic gate whose truth function it has. -/
def kind : BasicGate → Gate
  | and => .and
  | or => .or
  | not => .not

/-- The gate as text. -/
def text (gate : BasicGate) : String := gate.kind.text

/-- The output for any number of inputs: conjunction and disjunction take in all of them, the
inverter the first one. Without inputs every gate is false. -/
def value : BasicGate → List Bool → Bool
  | _, [] => false
  | and, first :: others => others.foldl (Gate.apply .and) first
  | or, first :: others => others.foldl (Gate.apply .or) first
  | not, first :: _ => Gate.apply .not first false

end BasicGate

/-- An element of a circuit. -/
inductive Element where
  /-- A source whose value can be set. -/
  | input (value : Bool)
  | gate (kind : BasicGate)
  /-- A sink that shows the value of its first wire. -/
  | output
deriving DecidableEq

namespace Element

/-- Whether the element is an input. -/
def isInput : Element → Bool
  | input _ => true
  | _ => false

/-- Whether the element is an output. -/
def isOutput : Element → Bool
  | output => true
  | _ => false

/-- The element as text. -/
def text : Element → String
  | input value => "input(" ++ Text.digits [value] ++ ")"
  | gate kind => kind.text
  | output => "output"

/-- Of the sources of the wires that end at an element, those that it reads. -/
def reads (element : Element) (sources : List Handle) : List Handle :=
  match element with
  | input _ => []
  | gate .and | gate .or => sources
  | gate .not | output => sources.take 1

/-- The value of an element, from the values that it reads. -/
def value (element : Element) (inputs : List Bool) : Bool :=
  match element with
  | input value => value
  | gate kind => kind.value inputs
  | output => inputs.headD false

/-! ### Laws -/

/-- An element reads some of its wires in their order. -/
theorem reads_sublist (element : Element) (sources : List Handle) :
    (element.reads sources).Sublist sources := by
  unfold reads
  split
  · exact List.nil_sublist _
  · exact List.Sublist.refl _
  · exact List.Sublist.refl _
  · exact List.take_sublist _ _
  · exact List.take_sublist _ _

end Element

/-- A conjunction is true when it has inputs and all of them are true. -/
theorem BasicGate.value_and {inputs : List Bool} :
    BasicGate.and.value inputs = true ↔ inputs ≠ [] ∧ ∀ input ∈ inputs, input = true := by
  cases inputs with
  | nil => simp [value]
  | cons first others =>
    simp only [value, ne_eq, reduceCtorEq, not_false_eq_true, List.mem_cons, forall_eq_or_imp,
      true_and]
    induction others generalizing first with
    | nil => simp
    | cons second others ih => simp [ih, Gate.apply, and_assoc]

/-- A disjunction is true when one of its inputs is true. -/
theorem BasicGate.value_or {inputs : List Bool} :
    BasicGate.or.value inputs = true ↔ ∃ input ∈ inputs, input = true := by
  cases inputs with
  | nil => simp [value]
  | cons first others =>
    simp only [value, List.mem_cons, exists_eq_or_imp]
    induction others generalizing first with
    | nil => simp
    | cons second others ih => simp [ih, Gate.apply, or_assoc]

theorem BasicGate.value_not (first : Bool) (others : List Bool) :
    BasicGate.not.value (first :: others) = !first := rfl

end Switching
