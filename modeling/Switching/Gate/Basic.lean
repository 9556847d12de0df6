/-
**Logic gates.**

The seven gates with one or two inputs, their truth functions and their texts.

* `apply_not`: the inverter ignores its second input;
* `find?_text`: every gate is found again by its text.
-/

import Switching.Text.Blank

namespace Switching

/-- A logic gate. -/
inductive Gate where
  | and
  | or
  | not
  | xor
  | nand
  | nor
  | imply
deriving DecidableEq

namespace Gate

/-- The gates in the order in which they are listed. -/
def all : List Gate := [and, or, not, xor, nand, nor, imply]

theorem mem_all (gate : Gate) : gate ∈ all := by
  cases gate <;> simp [all]

/-! ### Truth functions -/

/-- The output for two inputs. The inverter reads the first one. -/
def apply : Gate → Bool → Bool → Bool
  | and, a, b => a && b
  | or, a, b => a || b
  | not, a, _ => !a
  | xor, a, b => a != b
  | nand, a, b => !(a && b)
  | nor, a, b => !(a || b)
  | imply, a, b => !a || b

/-- The inverter ignores its second input. -/
@[simp] theorem apply_not (a b : Bool) : apply not a b = !a := rfl

/-- The number of inputs. -/
def arity : Gate → Nat
  | not => 1
  | _ => 2

/-- Whether the gate has one input. -/
def isUnary (gate : Gate) : Bool := gate.arity = 1

/-- Only the inverter has one input. -/
theorem isUnary_iff {gate : Gate} : gate.isUnary = true ↔ gate = not := by
  cases gate <;> simp [isUnary, arity]

/-! ### Texts -/

/-- The gate in capitals. -/
def text : Gate → String
  | and => "AND"
  | or => "OR"
  | not => "NOT"
  | xor => "XOR"
  | nand => "NAND"
  | nor => "NOR"
  | imply => "IMPLY"

/-- The operator sign. -/
def symbol : Gate → Char
  | and => '∧'
  | or => '∨'
  | not => '¬'
  | xor => '⊕'
  | nand => '↑'
  | nor => '↓'
  | imply => '→'

/-- The gate's name in words. -/
def name : Gate → String
  | and => "AND"
  | or => "OR"
  | not => "NOT"
  | xor => "Exclusive OR"
  | nand => "NOT AND"
  | nor => "NOT OR"
  | imply => "Implication (A → B)"

/-- When the gate is true. -/
def description : Gate → String
  | and => "True only if all inputs are true"
  | or => "True if at least one input is true"
  | not => "Inverts the input"
  | xor => "True if the inputs differ"
  | nand => "Inverse of AND"
  | nor => "Inverse of OR"
  | imply => "False only if A is true and B is false"

/-! ### Reading -/

/-- A text that names no gate. -/
structure Unknown where
  text : String
deriving DecidableEq

/-- The message for an unknown gate. -/
def Unknown.message (unknown : Unknown) : String := "unknown gate '" ++ unknown.text ++ "'"

/-- Whether two texts are equal up to the case of ASCII letters. -/
def sameIgnoringCase (first second : List Char) : Bool :=
  first.map Char.toLower = second.map Char.toLower

/-- The gate whose text this is, up to case and blanks at the ends. -/
def find? (text : String) : Option Gate :=
  all.find? fun gate => sameIgnoringCase gate.text.toList (Text.trim text.toList)

/-- Reads the text of a gate. -/
def ofText (text : String) : Except Unknown Gate :=
  match find? text with
  | some gate => .ok gate
  | none => .error ⟨text⟩

/-- Every gate is found again by its text. -/
theorem find?_text (gate : Gate) : find? gate.text = some gate := by
  cases gate <;> decide +kernel

end Gate

end Switching
