/-
**The grammar of expressions.**

Which token lists are expressions, said without a parser. Each connective has a level of its own, a
negation and a parenthesis count as one nesting each, and the left operand of a connective may hold
the same connective again, so that connectives associate to the left.

* `Derives.mono`: an allowance for nesting may be larger than needed;
* `Derives.ne_nil`: no expression is empty;
* `Sentence`, `Viable`: the whole sentences and their beginnings.
-/

import Switching.Expr.Basic
import Switching.Token

namespace Switching

/-- A level of the grammar. -/
inductive Level where
  /-- Operands joined by a connective. -/
  | joined (op : Connective)
  /-- A negation, a parenthesis or a leaf. -/
  | unary
deriving DecidableEq

/-- The level of a connective's operands. -/
def Level.operand : Connective → Level
  | .or => .joined .and
  | .and => .joined .xor
  | .xor => .unary

/-- The level of whole expressions. -/
def Level.whole : Level := .joined .or

/-- The tokens are written at a level, stand for the tree, and no place among them lies inside more
than `nesting` negations and parentheses. -/
inductive Derives : (nesting : Nat) → Level → List Token → Expr → Prop
  | var (nesting : Nat) (v : Variable) : Derives nesting .unary [.var v] (.var v)
  | const (nesting : Nat) (value : Bool) : Derives nesting .unary [.const value] (.const value)
  /-- A negation stands before its operand. -/
  | not {nesting : Nat} {tokens : List Token} {e : Expr}
      (operand : Derives nesting .unary tokens e) :
      Derives (nesting + 1) .unary (.not :: tokens) (.not e)
  /-- A whole expression may stand in parentheses. -/
  | enclosed {nesting : Nat} {tokens : List Token} {e : Expr}
      (inner : Derives nesting .whole tokens e) :
      Derives (nesting + 1) .unary (.opening :: (tokens ++ [.closing])) e
  /-- One operand needs no connective. -/
  | single {nesting : Nat} {op : Connective} {tokens : List Token} {e : Expr}
      (operand : Derives nesting (.operand op) tokens e) : Derives nesting (.joined op) tokens e
  /-- A connective joins what was written with it before and one more operand. -/
  | join {nesting : Nat} {op : Connective} {before after : List Token} {l r : Expr}
      (left : Derives nesting (.joined op) before l)
      (right : Derives nesting (.operand op) after r) :
      Derives nesting (.joined op) (before ++ .op op :: after) (.binary op l r)

/-- The tokens are a sentence that stands for the tree. -/
def Sentence (tokens : List Token) (e : Expr) : Prop := ∃ nesting, Derives nesting .whole tokens e

/-- The tokens are the beginning of a sentence. -/
def Viable (tokens : List Token) : Prop := ∃ more e, Sentence (tokens ++ more) e

namespace Derives

/-- An allowance for nesting may be larger than needed. -/
theorem mono {nesting greater : Nat} {level : Level} {tokens : List Token} {e : Expr}
    (derived : Derives nesting level tokens e) (enough : nesting ≤ greater) :
    Derives greater level tokens e := by
  induction derived generalizing greater with
  | var _ v => exact .var _ v
  | const _ value => exact .const _ value
  | not _ ih =>
    obtain ⟨less, rfl⟩ := Nat.exists_eq_add_of_le' (Nat.le_of_add_left_le enough)
    exact .not (ih (by omega))
  | enclosed _ ih =>
    obtain ⟨less, rfl⟩ := Nat.exists_eq_add_of_le' (Nat.le_of_add_left_le enough)
    exact .enclosed (ih (by omega))
  | single _ ih => exact .single (ih enough)
  | join _ _ left right => exact .join (left enough) (right enough)

theorem ne_nil {nesting : Nat} {level : Level} {tokens : List Token} {e : Expr}
    (derived : Derives nesting level tokens e) : tokens ≠ [] := by
  induction derived with
  | var _ _ => simp
  | const _ _ => simp
  | not _ _ => simp
  | enclosed _ _ => simp
  | single _ ih => exact ih
  | join _ _ _ _ => simp

end Derives

theorem Sentence.viable {tokens : List Token} {e : Expr} (sentence : Sentence tokens e) :
    Viable tokens :=
  ⟨[], e, by rwa [List.append_nil]⟩

theorem Viable.of_append {first second : List Token} (viable : Viable (first ++ second)) :
    Viable first := by
  obtain ⟨more, e, sentence⟩ := viable
  exact ⟨second ++ more, e, by rwa [← List.append_assoc]⟩

end Switching
