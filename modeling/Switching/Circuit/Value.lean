/-
**Values of a circuit.**

The value of one element, and the values of all elements in one pass.

* `valueOf`: the value of an element;
* `values`: those of all elements, in order, or the first error.
-/

import Switching.Circuit.Pass

namespace Switching

/-- The values of the elements of a circuit. -/
structure CircuitValues where
  /-- The handles in order, each with its value. -/
  entries : List (Handle × Bool)
deriving DecidableEq

namespace CircuitValues

/-- The value of a handle. -/
def get? (values : CircuitValues) (handle : Handle) : Option Bool :=
  (values.entries.find? fun entry => entry.1 = handle).map Prod.snd

/-- The value that a wire carries, which is that of its source. -/
def wire? (values : CircuitValues) (wire : Wire) : Option Bool := values.get? wire.source

end CircuitValues

namespace Circuit

/-- The value of an element. -/
def valueOf (c : Circuit) (handle : Handle) : Except Error Bool :=
  match Pass.run c (.initial c) handle with
  | .error e => .error e
  | .ok (value, _) => .ok value

/-- The values of all elements, found in one pass. -/
def values (c : Circuit) : Except Error CircuitValues :=
  match Pass.runAll c (.initial c) c.handles with
  | .error e => .error e
  | .ok found => .ok ⟨c.handles.zip found⟩

end Circuit

end Switching
