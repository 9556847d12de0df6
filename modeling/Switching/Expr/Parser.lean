/-
**Reading expressions.**

The grammar, loosest connective first; connectives associate to the left:

    or    := and (`or` and)*
    and   := xor (`and` xor)*
    xor   := unary (`^` unary)*
    unary := `not` unary | VARIABLE | `0` | `1` | `(` or `)`

Two limits hold: no place lies inside more than `maxDepth` parentheses and negations, and no tree is
deeper than `maxDepth`. An error is reported at the first lexeme that cannot be read.

* `chainFrom`, `unary`: the two readers;
* `parse`: reads a whole text.
-/

import Switching.Expr.Basic
import Switching.Lexeme

namespace Switching

/-- The greatest depth of nesting and of trees that is read. -/
def maxDepth : Nat := 256

namespace Parser

/-- What a reader found. -/
structure Parsed where
  expr : Expr
  depth : Nat
  /-- The lexemes behind it. -/
  rest : List Lexeme

/-- A reader takes an expression from the start of a list of lexemes. -/
abbrev Reader := List Lexeme → Except ParseError Parsed

/-- Reads operands of one connective behind a tree that was read: as long as the connective follows,
another operand and a deeper tree. -/
def chainFrom (limit : Nat) (op : Connective) (operand : Reader) (left : Expr) (depth : Nat)
    (pieces : List Lexeme) : Except ParseError Parsed :=
  match pieces with
  | ⟨start, _, .unknown c⟩ :: _ => .error ⟨.unexpectedChar c, start⟩
  | ⟨start, _, .token token⟩ :: rest =>
    if token = .op op then
      match operand rest with
      | .error e => .error e
      | .ok right =>
        if max depth right.depth < limit then
          chainFrom limit op operand (.binary op left right.expr) (max depth right.depth + 1)
            right.rest
        else .error ⟨.tooDeep, start⟩
    else .ok ⟨left, depth, pieces⟩
  | [] => .ok ⟨left, depth, []⟩
termination_by limit - depth

/-- Reads one or more operands of one connective. -/
def chain (limit : Nat) (op : Connective) (operand : Reader) : Reader := fun pieces =>
  match operand pieces with
  | .error e => .error e
  | .ok first => chainFrom limit op operand first.expr first.depth first.rest

/-- Reads an expression of any connectives, from a reader of what stands between them. -/
def expression (limit : Nat) (operand : Reader) : Reader :=
  chain limit .or (chain limit .and (chain limit .xor operand))

/-- Reads the parenthesis that closes the one opened at byte `start`. -/
def close (start : Nat) (inner : Parsed) : Except ParseError Parsed :=
  match inner.rest with
  | ⟨_, _, .token .closing⟩ :: rest => .ok { inner with rest := rest }
  | ⟨place, _, .token token⟩ :: _ => .error ⟨.unexpectedToken token.text, place⟩
  | ⟨place, _, .unknown c⟩ :: _ => .error ⟨.unexpectedChar c, place⟩
  | [] => .error ⟨.unclosedParen, start⟩

/-- Reads a negation, a parenthesis or a leaf. The text ends at byte `finish`, and `allowance` more
negations and parentheses may be entered. -/
def unary (limit finish : Nat) : (allowance : Nat) → Reader
  | _, [] => .error ⟨.unexpectedEnd, finish⟩
  | _, ⟨start, _, .unknown c⟩ :: _ => .error ⟨.unexpectedChar c, start⟩
  | _, ⟨_, _, .token (.var v)⟩ :: rest => .ok ⟨.var v, 0, rest⟩
  | _, ⟨_, _, .token (.const value)⟩ :: rest => .ok ⟨.const value, 0, rest⟩
  | 0, ⟨start, _, .token .not⟩ :: _ => .error ⟨.tooDeep, start⟩
  | 0, ⟨start, _, .token .opening⟩ :: _ => .error ⟨.tooDeep, start⟩
  | allowance + 1, ⟨start, _, .token .not⟩ :: rest =>
    match unary limit finish allowance rest with
    | .error e => .error e
    | .ok inner =>
      if inner.depth < limit then .ok ⟨.not inner.expr, inner.depth + 1, inner.rest⟩
      else .error ⟨.tooDeep, start⟩
  | allowance + 1, ⟨start, _, .token .opening⟩ :: rest =>
    match expression limit (unary limit finish allowance) rest with
    | .error e => .error e
    | .ok inner => close start inner
  | _, ⟨start, _, .token token⟩ :: _ => .error ⟨.unexpectedToken token.text, start⟩

/-- Nothing may follow a whole expression. -/
def complete (parsed : Parsed) : Except ParseError Expr :=
  match parsed.rest with
  | [] => .ok parsed.expr
  | ⟨place, _, .token .closing⟩ :: _ => .error ⟨.unmatchedParen, place⟩
  | ⟨place, _, .token token⟩ :: _ => .error ⟨.unexpectedToken token.text, place⟩
  | ⟨place, _, .unknown c⟩ :: _ => .error ⟨.unexpectedChar c, place⟩

/-- Reads all of a list of lexemes that ends at byte `finish`. -/
def whole (limit finish : Nat) (pieces : List Lexeme) : Except ParseError Expr :=
  match expression limit (unary limit finish limit) pieces with
  | .error e => .error e
  | .ok parsed => complete parsed

end Parser

/-- Reads a normalized text. -/
def parseNormalized (normalized : List Char) : Except ParseError Expr :=
  if normalized = [] then .error ⟨.empty, 0⟩
  else Parser.whole maxDepth (Text.byteLength normalized) (lexemes normalized)

/-- Reads the expression that a text is. -/
def parse (text : String) : Except ParseError Expr := parseNormalized (Text.normalize text.toList)

end Switching
