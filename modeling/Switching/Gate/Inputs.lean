/-
**Gates on lists of inputs.**

* `applyTo_eq_ok_iff`: a gate accepts a list exactly when it is long enough, and reads its first
  one or two values.
-/

import Switching.Misuse

namespace Switching.Gate

/-- The output for a list of inputs, of which the gate reads as many as it has inputs. -/
def applyTo (gate : Gate) (inputs : List Bool) : Except Misuse Bool :=
  if gate.arity ≤ inputs.length then
    .ok (gate.apply (inputs.getD 0 false) (inputs.getD 1 false))
  else .error (.missingInputs gate inputs.length)

/-- A gate accepts exactly the lists that are long enough. -/
theorem applyTo_eq_ok_iff {gate : Gate} {inputs : List Bool} {value : Bool} :
    gate.applyTo inputs = .ok value ↔
      gate.arity ≤ inputs.length ∧
        gate.apply (inputs.getD 0 false) (inputs.getD 1 false) = value := by
  by_cases enough : gate.arity ≤ inputs.length <;> simp [applyTo, enough]

end Switching.Gate
