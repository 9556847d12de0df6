/-
**Errors.**

What can go wrong while an expression is read, tabulated or evaluated, and while a circuit is built
or evaluated, with the message for each.

* `source_isSome_iff`: exactly the errors of reading have another error as their source.
-/

import Switching.Circuit.Handle
import Switching.Token

namespace Switching

/-! ### Errors of reading -/

/-- Why a text is no expression. -/
inductive ParseErrorKind where
  /-- The text is blank. -/
  | empty
  /-- A character starts no token. -/
  | unexpectedChar (c : Char)
  /-- A token, given by its text, stands where it cannot. -/
  | unexpectedToken (token : String)
  /-- The text ends where an operand has to follow. -/
  | unexpectedEnd
  /-- A parenthesis is not closed. -/
  | unclosedParen
  /-- A parenthesis is closed that was not opened. -/
  | unmatchedParen
  /-- The nesting or the tree is too deep. -/
  | tooDeep
deriving DecidableEq

/-- An error of reading and where it is. -/
structure ParseError where
  kind : ParseErrorKind
  /-- The byte offset in the normalized text. -/
  position : Nat
deriving DecidableEq

/-- What an error of reading says. -/
def ParseError.message : ParseError → String
  | ⟨.empty, _⟩ => "expression is empty"
  | ⟨.unexpectedChar c, position⟩ =>
    "unexpected character " ++ Text.quoted c ++ " at " ++ toString position
  | ⟨.unexpectedToken token, position⟩ =>
    "unexpected '" ++ token ++ "' at " ++ toString position
  | ⟨.unexpectedEnd, position⟩ => "unexpected end of expression at " ++ toString position
  | ⟨.unclosedParen, position⟩ => "unclosed parenthesis at " ++ toString position
  | ⟨.unmatchedParen, position⟩ => "unmatched closing parenthesis at " ++ toString position
  | ⟨.tooDeep, position⟩ => "expression nested too deeply at " ++ toString position

/-! ### All errors -/

/-- Why two elements cannot be connected. -/
inductive WireFault where
  | intoInput
  | fromOutput
deriving DecidableEq

/-- What a wire fault says. -/
def WireFault.message : WireFault → String
  | intoInput => "inputs cannot be driven"
  | fromOutput => "outputs cannot drive other elements"

/-- An error of reading, of evaluation or of a circuit. -/
inductive Error where
  | parse (e : ParseError)
  /-- An expression has no variables to tabulate. -/
  | noVariables
  /-- An expression or circuit has more variables than the limit. -/
  | tooManyVariables (count limit : Nat)
  | unbound (v : Variable)
  /-- The value of an element depends on itself. -/
  | cycle (handle : Handle)
  /-- There is no element of this handle. -/
  | unknownElement (handle : Handle)
  /-- An element that has to be an input is none. -/
  | notAnInput (handle : Handle)
  /-- Two elements cannot be connected. -/
  | invalidWire (source target : Handle) (fault : WireFault)
deriving DecidableEq

namespace Error

/-- What an error says. -/
def message : Error → String
  | parse e => "Parse error: " ++ e.message
  | noVariables => "No variables found in expression"
  | tooManyVariables count limit =>
    "Too many variables: found " ++ toString count ++ ", at most " ++ toString limit ++
      " supported"
  | unbound v => "Evaluation error: variable '" ++ v.text ++ "' is not assigned"
  | cycle handle => "Cycle detected at element " ++ handle.text
  | unknownElement handle => "Unknown element " ++ handle.text
  | notAnInput handle => "Element " ++ handle.text ++ " is not an input"
  | invalidWire source target fault =>
    "Invalid wire " ++ source.text ++ " -> " ++ target.text ++ ": " ++ fault.message

/-- The error of reading behind an error. -/
def source : Error → Option ParseError
  | parse e => some e
  | _ => none

/-- Exactly the errors of reading have another error as their source. -/
theorem source_isSome_iff {e : Error} : e.source.isSome = true ↔ ∃ read, e = parse read := by
  cases e <;> simp [source]

end Error

end Switching
