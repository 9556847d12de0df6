/-
**Tokens.**

The words of the expression language: variables, constants, operators and parentheses. An operator
has one token, however it is spelled.

* `var?_eq_some_iff`: exactly the variable tokens have a variable.
-/

import Switching.Connective
import Switching.Text.Digit
import Switching.Variable

namespace Switching

/-- A word of the expression language. -/
inductive Token where
  | var (v : Variable)
  | const (value : Bool)
  | op (connective : Connective)
  | not
  | opening
  | closing
deriving DecidableEq

namespace Token

/-- The text by which messages name a token. -/
def text : Token → String
  | var v => v.text
  | const value => Text.digits [value]
  | op connective => connective.text
  | not => "not"
  | opening => "("
  | closing => ")"

/-- The variable of a variable token. -/
def var? : Token → Option Variable
  | var v => some v
  | _ => none

theorem var?_eq_some_iff {token : Token} {v : Variable} : token.var? = some v ↔ token = var v := by
  cases token <;> simp [var?]

end Token

end Switching
