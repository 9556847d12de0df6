/-
**Solving expressions.**

A solver tabulates expressions with a limited number of variables.

* `accept_eq_ok_iff`: a list of variables is accepted when it is neither empty nor too long;
* `solveExpr`, `solve`: the truth table of a tree and of a text;
* `variablesOf`: the variables of a text, which need not be an expression.
-/

import Switching.Expr.Flattened
import Switching.Expr.Parser
import Switching.TruthTable

namespace Switching

/-- A cap on the number of variables of a table. -/
structure Solver where
  /-- The most variables that are tabulated. -/
  cap : Nat
  positive : 1 ≤ cap
  bounded : cap ≤ widestTable
deriving DecidableEq

namespace Solver

/-- The solver for at most four variables. -/
def standard : Solver := ⟨4, by decide, by decide⟩

/-- The solver with a given cap. -/
def ofCap (cap : Nat) : Except Misuse Solver :=
  if fits : 1 ≤ cap ∧ cap ≤ widestTable then .ok ⟨cap, fits.1, fits.2⟩
  else .error (.capOutOfRange widestTable)

/-- Accepts variables that a table can be built for. -/
def accept (solver : Solver) (vars : List Variable) : Except Error (List Variable) :=
  if vars = [] then .error .noVariables
  else if solver.cap < vars.length then .error (.tooManyVariables vars.length solver.cap)
  else .ok vars

/-- The distinct variables of lexemes in order of first appearance. -/
def distinctVariables (pieces : List Lexeme) : List Variable :=
  (pieces.filterMap fun piece =>
    match piece.reading with
    | .token token => token.var?
    | .unknown _ => none).eraseDups

/-- The variables of a text in order of first appearance, unknown characters being skipped. -/
def variablesOf (solver : Solver) (text : String) : Except Error (List Variable) :=
  match Text.normalize text.toList with
  | [] => .error (.parse ⟨.empty, 0⟩)
  | normalized => solver.accept (distinctVariables (lexemes normalized))

/-- The table of a tree over a list of variables. -/
def tabulate (e : Expr) (vars : List Variable) : Except Error TruthTable :=
  match Flattened.ofExpr e vars with
  | .error e => .error e
  | .ok flat => .ok (TruthTable.tabulate vars fun index _ => flat.valueInRow index)

/-- The truth table of a tree. -/
def solveExpr (solver : Solver) (e : Expr) : Except Error TruthTable :=
  match solver.accept e.vars with
  | .error e => .error e
  | .ok vars => tabulate e vars

/-- The truth table of a text. Its variables are counted before it is read. -/
def solve (solver : Solver) (text : String) : Except Error TruthTable :=
  match solver.variablesOf text with
  | .error e => .error e
  | .ok vars =>
    match parse text with
    | .error e => .error (.parse e)
    | .ok e => tabulate e vars

/-- Variables are accepted when they are neither none nor too many. -/
theorem accept_eq_ok_iff {solver : Solver} {vars accepted : List Variable} :
    solver.accept vars = .ok accepted ↔
      vars ≠ [] ∧ vars.length ≤ solver.cap ∧ vars = accepted := by
  unfold accept
  by_cases none : vars = []
  · simp [none]
  · by_cases many : solver.cap < vars.length
    · simp [none, many, Nat.not_le.mpr many]
    · simp [none, many, Nat.le_of_not_lt many]

end Solver

/-- The variables of a text, for the standard cap. -/
def parseVariables (text : String) : Except Error (List Variable) :=
  Solver.standard.variablesOf text

/-- The truth table of a text, for the standard cap. -/
def solve (text : String) : Except Error TruthTable := Solver.standard.solve text

end Switching
