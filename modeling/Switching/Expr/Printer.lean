/-
**Printed expressions.**

An expression is printed with as few parentheses as its tree needs: an operand is enclosed when its
operator binds more loosely than its place asks for. Connectives associate to the left, so the right
operand of a connective has to bind more tightly than the connective, the left one just as tightly.

* `render_not`, `render_binary`: how an operator is printed;
* `render_of_le`, `render_of_lt`: it has no parentheses around it exactly where it binds tightly
  enough.
-/

import Switching.Expr.Basic
import Switching.Text.Digit

namespace Switching

/-- How operators are written. -/
structure Style where
  /-- The negation sign, before its operand. -/
  negation : List Char
  /-- A connective, between its operands. -/
  connective : Connective → List Char

namespace Style

/-- Words and ASCII signs. -/
def keywords : Style where
  negation := ['n', 'o', 't', ' ']
  connective
    | .and => [' ', 'a', 'n', 'd', ' ']
    | .or => [' ', 'o', 'r', ' ']
    | .xor => [' ', '^', ' ']

/-- The signs of logic. -/
def symbols : Style where
  negation := ['¬']
  connective
    | .and => [' ', '∧', ' ']
    | .or => [' ', '∨', ' ']
    | .xor => [' ', '⊕', ' ']

end Style

namespace Expr

/-- How tightly a negation binds. -/
def negationStrength : Nat := 4

/-- How tightly a leaf binds. -/
def leafStrength : Nat := 5

/-- How tightly the outermost operator binds. -/
def strength : Expr → Nat
  | const _ | var _ => leafStrength
  | not _ => negationStrength
  | binary op _ _ => op.strength

/-- The text of an expression of some strength, at a place that asks for strength `least`: it is
put into parentheses if it binds too loosely. -/
def enclose (strength least : Nat) (text : List Char) : List Char :=
  if strength < least then '(' :: (text ++ [')']) else text

/-- The expression as text, at a place that asks for an operator of strength `least` or more. -/
def render (style : Style) (least : Nat) : Expr → List Char
  | const value => enclose leafStrength least [Text.digit value]
  | var v => enclose leafStrength least [v.name]
  | not e => enclose negationStrength least (style.negation ++ e.render style negationStrength)
  | binary op l r =>
    enclose op.strength least
      (l.render style op.strength ++ style.connective op ++ r.render style (op.strength + 1))

/-- The whole expression as text. -/
def text (style : Style) (e : Expr) : String := String.ofList (e.render style 0)

/-! ### Laws -/

@[simp] theorem enclose_zero (strength : Nat) (text : List Char) :
    enclose strength 0 text = text := by
  simp [enclose]

theorem enclose_of_le {strength least : Nat} (tight : least ≤ strength) (text : List Char) :
    enclose strength least text = text := by
  simp [enclose, Nat.not_lt.mpr tight]

theorem enclose_of_lt {strength least : Nat} (loose : strength < least) (text : List Char) :
    enclose strength least text = '(' :: (text ++ [')']) := by
  simp [enclose, loose]

theorem render_not (style : Style) (least : Nat) (e : Expr) :
    (not e).render style least =
      enclose negationStrength least
        (style.negation ++ e.render style negationStrength) := rfl

theorem render_binary (style : Style) (least : Nat) (op : Connective) (l r : Expr) :
    (binary op l r).render style least =
      enclose op.strength least
        (l.render style op.strength ++ style.connective op ++ r.render style (op.strength + 1)) :=
  rfl

/-- Only the outermost parentheses depend on the place. -/
theorem render_eq_enclose (style : Style) (least : Nat) (e : Expr) :
    e.render style least = enclose e.strength least (e.render style 0) := by
  cases e <;> simp [render, strength]

theorem render_of_le {style : Style} {least : Nat} {e : Expr} (tight : least ≤ e.strength) :
    e.render style least = e.render style 0 := by
  rw [render_eq_enclose, enclose_of_le tight]

theorem render_of_lt {style : Style} {least : Nat} {e : Expr} (loose : e.strength < least) :
    e.render style least = '(' :: (e.render style 0 ++ [')']) := by
  rw [render_eq_enclose, enclose_of_lt loose]

end Expr

end Switching
