/-
**Sessions.**

A circuit is edited and asked in turn. A question leaves it as it is. Every request is answered, also
the one that fails, and the next one finds the circuit as this one left it.

* `answer`: what a question is answered;
* `serve`: what a request is answered and leaves;
* `answers`: the answers to several requests in turn.
-/

import Switching.Circuit.Log
import Switching.Circuit.Table

namespace Switching

/-- A question about a circuit. -/
inductive Query where
  | size
  | contains (handle : Handle)
  | get (handle : Handle)
  | element (handle : Handle)
  | fanIn (handle : Handle)
  | elements
  | wires
  | inputs
  | outputs
  | valueOf (handle : Handle)
  | values
  | truthTable
deriving DecidableEq

/-- Something that is asked of a circuit: to change, or a question. -/
inductive Request where
  | edit (change : Edit)
  | query (query : Query)
deriving DecidableEq

/-- What a request is answered. -/
inductive Answer where
  | reply (result : Except Error Reply)
  | count (number : Nat)
  | truth (holds : Bool)
  | found (element : Option Element)
  | element (result : Except Error Element)
  | handles (listed : List Handle)
  | elements (listed : List (Handle × Element))
  | wires (listed : List Wire)
  | value (result : Except Error Bool)
  | values (result : Except Error CircuitValues)
  | table (result : Except Error CircuitTable)

namespace Circuit

/-- What a question is answered. -/
def answer (c : Circuit) : Query → Answer
  | .size => .count c.size
  | .contains handle => .truth (c.contains handle)
  | .get handle => .found (c.get? handle)
  | .element handle => .element (c.element handle)
  | .fanIn handle => .handles (c.fanIn handle)
  | .elements => .elements c.elements
  | .wires => .wires c.wires.toList
  | .inputs => .handles c.inputs
  | .outputs => .handles c.outputs
  | .valueOf handle => .value (c.valueOf handle)
  | .values => .values c.values
  | .truthTable => .table c.truthTable

/-- What a request is answered, and the circuit that it leaves. -/
def serve (c : Circuit) : Request → Answer × Circuit
  | .edit change => (.reply (c.attempt change).1, (c.attempt change).2)
  | .query query => (c.answer query, c)

/-- The answers to several requests in turn. -/
def answers (c : Circuit) : List Request → List Answer
  | [] => []
  | request :: later => (c.serve request).1 :: (c.serve request).2.answers later

end Circuit

end Switching
