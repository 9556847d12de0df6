/-
**The tokens of a printed expression.**

The printer writes words and blanks, the grammar speaks of tokens. In between stands the list of
tokens that are printed, which is the same in every style.

* `derives_tokens`: the printed tokens derive the tree, with no more nesting than it has depth;
* `render_eq_flatMap`: the printed text is its tokens printed one after another;
* `normalize_flatMap_printed`: normalized, they are the tokens written without blanks.
-/

import Switching.Expr.Printer
import Switching.Proofs.Reading.Readers
import Switching.Text.Normalized

namespace Switching

/-! ### Tokens in the place of text -/

namespace Expr

/-- The tokens of an expression of some strength, at a place that asks for strength `least`. -/
def encloseTokens (strength least : Nat) (tokens : List Token) : List Token :=
  if strength < least then .opening :: (tokens ++ [.closing]) else tokens

/-- The tokens that are printed for an expression, at a place that asks for strength `least`. -/
def tokens (least : Nat) : Expr → List Token
  | const value => encloseTokens leafStrength least [.const value]
  | var v => encloseTokens leafStrength least [.var v]
  | not e => encloseTokens negationStrength least (.not :: e.tokens negationStrength)
  | binary op l r =>
    encloseTokens op.strength least
      (l.tokens op.strength ++ .op op :: r.tokens (op.strength + 1))

theorem encloseTokens_of_le {strength least : Nat} (tight : least ≤ strength)
    (tokens : List Token) : encloseTokens strength least tokens = tokens :=
  if_neg (Nat.not_lt.mpr tight)

theorem encloseTokens_of_lt {strength least : Nat} (loose : strength < least)
    (tokens : List Token) :
    encloseTokens strength least tokens = .opening :: (tokens ++ [.closing]) :=
  if_pos loose

/-- Only the outermost parentheses depend on the place. -/
theorem tokens_eq_enclose (least : Nat) (e : Expr) :
    e.tokens least = encloseTokens e.strength least (e.tokens 0) := by
  cases e <;> simp [tokens, strength, encloseTokens_of_le]

end Expr

/-! ### Printed tokens in the grammar -/

/-- What is written loosely is enclosed where something tighter is asked for. -/
theorem Derives.encloseTokens {nesting : Nat} {loose level : Level} {tokens : List Token} {e : Expr}
    (derived : Derives nesting loose tokens e) :
    Derives (nesting + 1) level (Expr.encloseTokens loose.strength level.strength tokens) e := by
  by_cases tight : level.strength ≤ loose.strength
  · rw [Expr.encloseTokens_of_le tight]
    exact (derived.lift tight).mono (Nat.le_succ _)
  · rw [Expr.encloseTokens_of_lt (Nat.lt_of_not_le tight)]
    have whole : Derives nesting .whole tokens e := derived.lift loose.strength_whole_le
    exact (Derives.enclosed whole).lift level.strength_le_negation

/-- **The printed tokens derive the tree.** A pair of parentheses is printed only around an operator
inside another one, so that the nesting is at most the depth. -/
theorem derives_tokens (e : Expr) (level : Level) :
    Derives e.depth level (e.tokens level.strength) e := by
  have leaf : level.strength ≤ Expr.leafStrength :=
    Nat.le_trans level.strength_le_negation (by decide)
  induction e generalizing level with
  | const value =>
    rw [Expr.tokens, Expr.encloseTokens_of_le leaf]
    exact (Derives.const 0 value).lift level.strength_le_negation
  | var v =>
    rw [Expr.tokens, Expr.encloseTokens_of_le leaf]
    exact (Derives.var 0 v).lift level.strength_le_negation
  | not e ih =>
    rw [Expr.tokens, Expr.encloseTokens_of_le level.strength_le_negation]
    exact (Derives.not (ih .unary (by decide))).lift level.strength_le_negation
  | binary op l r left right =>
    have before := left (.joined op) (by cases op <;> decide)
    have after := right (.operand op) (by cases op <;> decide)
    rw [Level.strength_operand] at after
    exact ((before.mono (Nat.le_max_left ..)).join
      (after.mono (Nat.le_max_right ..))).encloseTokens

/-- Nothing is enclosed at the outermost place. -/
theorem tokens_zero (e : Expr) : e.tokens 0 = e.tokens Level.whole.strength := by
  have tight : Level.whole.strength ≤ e.strength := by
    have leaf : Level.whole.strength ≤ Expr.leafStrength := by decide
    cases e with
    | const value => exact leaf
    | var v => exact leaf
    | not e => exact Level.whole.strength_le_negation
    | binary op l r => exact (Level.joined op).strength_whole_le
  rw [Expr.tokens_eq_enclose Level.whole.strength, Expr.encloseTokens_of_le tight]

/-! ### Printed tokens in the text -/

/-- How a token is printed in a style. -/
def Style.printed (style : Style) : Token → List Char
  | .var v => [v.name]
  | .const value => [Text.digit value]
  | .op op => style.connective op
  | .not => style.negation
  | .opening => ['(']
  | .closing => [')']

/-- How a token is written in a style, once the blanks are gone. -/
def Style.written (style : Style) : Token → List Char
  | .var v => [v.name]
  | .const value => [Text.digit value]
  | .op op => Text.normalize (style.connective op)
  | .not => Text.normalize style.negation
  | .opening => ['(']
  | .closing => [')']

/-- A visible small ASCII character is its own normal form. -/
theorem Text.normalize_singleton {c : Char} (visible : 0x21 ≤ c.toNat ∧ c.toNat < 0x7f)
    (small : c.isUpper = false) : normalize [c] = [c] := by
  have inked : isBlank c = false := by
    rw [isBlank, ← Bool.not_eq_true, covers_iff]
    rintro ⟨range, member, above, below⟩
    have apart : ∀ range ∈ blankRanges, range.last < 0x21 ∨ 0x7f ≤ range.first := by
      decide
    rcases apart range member with before | after <;> omega
  have lower : lowercase c = [c] := by
    rw [lowercase_of_ascii (by omega), toLower_eq_self small]
  simp [normalize, inked, lower]

namespace Style

variable (style : Style)

/-- Parentheses around a text are parentheses around its tokens. -/
theorem enclose_eq_flatMap {text : List Char} {tokens : List Token}
    (inner : text = tokens.flatMap style.printed) (strength least : Nat) :
    Expr.enclose strength least text =
      (Expr.encloseTokens strength least tokens).flatMap style.printed := by
  by_cases tight : least ≤ strength
  · rw [Expr.enclose_of_le tight, Expr.encloseTokens_of_le tight, inner]
  · have loose := Nat.lt_of_not_le tight
    rw [Expr.enclose_of_lt loose, Expr.encloseTokens_of_lt loose, inner, List.flatMap_cons,
      List.flatMap_append]
    rfl

/-- **The printed text is its tokens printed one after another.** -/
theorem render_eq_flatMap (least : Nat) (e : Expr) :
    e.render style least = (e.tokens least).flatMap style.printed := by
  induction e generalizing least with
  | const value =>
    refine style.enclose_eq_flatMap ?_ _ _
    rfl
  | var v =>
    refine style.enclose_eq_flatMap ?_ _ _
    rfl
  | not e ih =>
    refine style.enclose_eq_flatMap ?_ _ _
    rw [ih, List.flatMap_cons]
    rfl
  | binary op l r left right =>
    refine style.enclose_eq_flatMap ?_ _ _
    rw [left, right, List.flatMap_append, List.flatMap_cons, List.append_assoc]
    rfl

theorem normalize_printed (token : Token) :
    Text.normalize (style.printed token) = style.written token := by
  cases token with
  | var v =>
    have bounds := v.toNat_name_bounds
    refine Text.normalize_singleton (by omega) ?_
    rw [← Bool.not_eq_true, Text.isUpper_iff]
    omega
  | const value => cases value <;> exact Text.normalize_singleton (by decide) (by decide)
  | op op => rfl
  | not => rfl
  | opening => exact Text.normalize_singleton (by decide) (by decide)
  | closing => exact Text.normalize_singleton (by decide) (by decide)

/-- **Printed tokens, normalized, are the tokens written one after another.** -/
theorem normalize_flatMap_printed (tokens : List Token) :
    Text.normalize (tokens.flatMap style.printed) = tokens.flatMap style.written := by
  induction tokens with
  | nil => rfl
  | cons token tokens ih =>
    rw [List.flatMap_cons, List.flatMap_cons, Text.normalize_append, normalize_printed, ih]

end Style

end Switching
