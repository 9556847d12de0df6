/-
**Broken preconditions.**

Some operations are only meant for arguments of a certain form. Calling them with others is a
misuse, which is kept apart from the errors that ordinary input can cause.

* `Misuse.message`: the text of each misuse.
-/

import Switching.Gate.Basic
import Switching.Text.Quoted

namespace Switching

/-- A precondition that a call broke. -/
inductive Misuse where
  /-- A variable was to be named by a character that is no ASCII letter. -/
  | notLetter (name : Char)
  /-- A cap on the number of variables was not between one and the greatest cap. -/
  | capOutOfRange (greatest : Nat)
  /-- Assignments were to be enumerated over a list that repeats a variable. -/
  | repeatedVariable
  /-- Assignments were to be enumerated over too many variables. -/
  | tooManyToEnumerate (count : Nat)
  /-- An expression was evaluated on fewer values than it has variables. -/
  | missingValues (needed given : Nat)
  /-- A gate was applied to fewer values than it has inputs. -/
  | missingInputs (gate : Gate) (given : Nat)
deriving DecidableEq

/-- What a misuse says. -/
def Misuse.message : Misuse → String
  | notLetter name => "Variable name must be an ASCII letter, got " ++ Text.quoted name
  | capOutOfRange greatest =>
    "Max variables should be in the range 1..=" ++ toString greatest
  | repeatedVariable => "Variables must be distinct"
  | tooManyToEnumerate count => "Too many variables to enumerate: " ++ toString count
  | missingValues needed given =>
    "Expected " ++ toString needed ++ " values, got " ++ toString given
  | missingInputs gate given =>
    gate.text ++ " expects " ++ toString gate.arity ++ " inputs, got " ++ toString given

end Switching
