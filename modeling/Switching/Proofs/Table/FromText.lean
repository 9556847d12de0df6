/-
**The truth table of a text.**

The variables of a text are found by a scan over its lexemes that skips what it does not know; its
tree is found by reading, and the two do not see each other. Where the text can be read they agree,
order included, because reading consumes the lexemes from left to right and puts every variable
among them into the tree as a leaf. So a text has the table, or the error, of its tree. A text that
cannot be read has no table, but its variables are counted before this is noticed.

* `Derives.variables`: the tokens of a derivation hold the variables of its tree, in order;
* `scanned_of_parse`: the scan of a text that is read finds the variables of its tree;
* `Solver.solve_of_parse`: a text that is read is solved as its tree;
* `Solver.solve_of_unread`: what a text is refused for that is not read;
* `solve_text_spec`: both, for every text and every cap that solvers have.
-/

import Switching.Proofs.Reading.Sentences
import Switching.Proofs.Table.Solved

namespace Switching

/-! ### The variables among tokens -/

/-- **The tokens of a derivation hold the variables of its tree**, as often and in the order in
which they occur there. Connectives, negations and parentheses add none. -/
theorem Derives.variables {nesting : Nat} {level : Level} {tokens : List Token} {e : Expr}
    (derived : Derives nesting level tokens e) :
    tokens.filterMap Token.var? = e.occurrences := by
  induction derived with
  | var _ v => rfl
  | const _ value => rfl
  | not _ ih => exact ih
  | @enclosed nesting tokens e _ ih =>
    have around : (Token.opening :: (tokens ++ [.closing])).filterMap Token.var? =
        tokens.filterMap Token.var? ++ [] := List.filterMap_append
    rw [around, List.append_nil, ih]
  | single _ ih => exact ih
  | @join nesting op before after l r _ _ left right =>
    have between : (before ++ Token.op op :: after).filterMap Token.var? =
        before.filterMap Token.var? ++ after.filterMap Token.var? := List.filterMap_append
    rw [between, left, right]
    rfl

/-- The distinct variables that the scan of a text finds. -/
def scanned (text : String) : List Variable :=
  Solver.distinctVariables (lexemes (Text.normalize text.toList))

/-- Lexemes that carry tokens hold the variables of these. -/
theorem distinctVariables_of_carries {pieces : List Lexeme} {tokens : List Token}
    (carried : Carries pieces tokens) :
    Solver.distinctVariables pieces = (tokens.filterMap Token.var?).eraseDups := by
  unfold Solver.distinctVariables
  congr 1
  induction tokens generalizing pieces with
  | nil => rw [carries_nil_iff.mp carried]; rfl
  | cons token tokens ih =>
    obtain ⟨start, spelling, rest, rfl, others⟩ := carries_cons_iff.mp carried
    rw [List.filterMap_cons, List.filterMap_cons, ih others]

/-- **The scan of a text that is read finds the variables of its tree**, in the order of their first
appearance. -/
theorem scanned_of_parse {text : String} {e : Expr} (read : parse text = .ok e) :
    scanned text = e.vars := by
  obtain ⟨placed, found, derived, _⟩ := parse_eq_ok_iff_derives.mp read
  obtain ⟨_, carried⟩ := tokenize_eq_ok_iff.mp ⟨placed, found, rfl⟩
  rw [scanned, distinctVariables_of_carries carried, derived.variables, Expr.vars]

theorem nodup_scanned (text : String) : (scanned text).Nodup := nodup_eraseDups _

/-- The scan finds the variables among the lexemes. -/
theorem mem_scanned_iff {text : String} {v : Variable} :
    v ∈ scanned text ↔
      ∃ piece ∈ lexemes (Text.normalize text.toList), piece.reading = .token (.var v) := by
  unfold scanned Solver.distinctVariables
  rw [List.mem_eraseDups, List.mem_filterMap]
  refine exists_congr fun piece => and_congr_right fun _ => ?_
  cases piece.reading with
  | token token => rw [Reading.token.injEq]; exact Token.var?_eq_some_iff
  | unknown c => simp

/-! ### Solving a text -/

/-- A blank text is no expression. -/
theorem parse_of_blank {text : String} (blank : Text.normalize text.toList = []) :
    parse text = .error ⟨.empty, 0⟩ := by
  unfold parse parseNormalized
  rw [if_pos blank]

theorem normalize_ne_nil_of_parse {text : String} {e : Expr} (read : parse text = .ok e) :
    Text.normalize text.toList ≠ [] := by
  intro blank
  rw [parse_of_blank blank] at read
  cases read

namespace Solver

variable (solver : Solver) {text : String}

theorem variablesOf_of_blank (blank : Text.normalize text.toList = []) :
    solver.variablesOf text = .error (.parse ⟨.empty, 0⟩) := by
  unfold variablesOf
  rw [blank]

/-- The variables of a text are those of the scan, if the solver accepts them. -/
theorem variablesOf_of_inked (inked : Text.normalize text.toList ≠ []) :
    solver.variablesOf text = solver.accept (scanned text) := by
  unfold variablesOf
  split
  · rename_i blank
    exact absurd blank inked
  · rfl

theorem variablesOf_of_parse {e : Expr} (read : parse text = .ok e) :
    solver.variablesOf text = solver.accept e.vars := by
  rw [solver.variablesOf_of_inked (normalize_ne_nil_of_parse read), scanned_of_parse read]

/-- **A text that is read is solved as its tree.** -/
theorem solve_of_parse {e : Expr} (read : parse text = .ok e) :
    solver.solve text = solver.solveExpr e := by
  unfold solve solveExpr
  rw [solver.variablesOf_of_parse read]
  cases solver.accept e.vars with
  | error failure => rfl
  | ok vars => rw [read]

/-- What a text that is not read is refused for: for being blank, for having no variables or too
many of them, and only then for what keeps it from being read. -/
def refusal (text : String) (unread : ParseError) : Error :=
  if text.toList.all Text.isBlank = true then .parse ⟨.empty, 0⟩
  else if scanned text = [] then .noVariables
  else if solver.cap < (scanned text).length then .tooManyVariables (scanned text).length solver.cap
  else .parse unread

/-- **A text that is not read has no table.** -/
theorem solve_of_unread {unread : ParseError} (failed : parse text = .error unread) :
    solver.solve text = .error (solver.refusal text unread) := by
  unfold solve refusal
  by_cases blank : text.toList.all Text.isBlank = true
  · have empty := Text.normalize_eq_nil_iff.mpr (List.all_eq_true.mp blank)
    rw [if_pos blank, solver.variablesOf_of_blank empty]
  · have inked := mt Text.normalize_eq_nil_iff.mp (mt List.all_eq_true.mpr blank)
    rw [if_neg blank, solver.variablesOf_of_inked inked, accept]
    by_cases none : scanned text = []
    · rw [if_pos none, if_pos none]
    · rw [if_neg none, if_neg none]
      by_cases many : solver.cap < (scanned text).length
      · rw [if_pos many, if_pos many]
      · rw [if_neg many, if_neg many, failed]

/-- The answers about a tree's variables and about its table differ only where both are found. -/
theorem variablesOf_eq_of_parse {e : Expr} (read : parse text = .ok e) :
    (1 ≤ e.vars.length ∧ e.vars.length ≤ solver.cap ∧ solver.variablesOf text = .ok e.vars) ∨
      ¬ (1 ≤ e.vars.length ∧ e.vars.length ≤ solver.cap) ∧
        ∃ refused, (refused = .noVariables ∨ refused = .tooManyVariables e.vars.length solver.cap) ∧
          solver.variablesOf text = .error refused ∧ solver.solveExpr e = .error refused := by
  rw [solver.variablesOf_of_parse read]
  rcases solver.solveExpr_cases e with ⟨none, answer⟩ | ⟨_, many, answer⟩ | ⟨some, few, _⟩
  · have empty := Expr.vars_eq_nil_iff.mpr none
    refine .inr ⟨by simp [empty], .noVariables, .inl rfl, ?_, answer⟩
    rw [accept, if_pos empty]
  · have some : e.vars ≠ [] := by
      rintro empty
      rw [empty] at many
      exact absurd many (Nat.not_lt_zero _)
    refine .inr ⟨fun within => absurd many (Nat.not_lt.mpr within.2), _, .inr rfl, ?_, answer⟩
    rw [accept, if_neg some, if_pos many]
  · have present : e.vars ≠ [] := mt Expr.vars_eq_nil_iff.mp some
    exact .inl ⟨List.length_pos_iff.mpr present, few, accept_eq_ok_iff.mpr ⟨present, few, rfl⟩⟩

theorem solveExpr_ne_unbound (e : Expr) (v : Variable) :
    solver.solveExpr e ≠ .error (.unbound v) := by
  rcases solver.solveExpr_cases e with ⟨_, answer⟩ | ⟨_, _, answer⟩ | ⟨_, _, table, answer, _⟩
  · rw [answer]; simp
  · rw [answer]; simp
  · rw [answer]; simp

theorem refusal_ne_unbound (text : String) (unread : ParseError) (v : Variable) :
    solver.refusal text unread ≠ .unbound v := by
  unfold refusal
  split
  · simp
  · split
    · simp
    · split <;> simp

end Solver

/-- **A text is solved as its tree**, by every solver. Where it is read, its table or error is that
of its tree, and so is the answer about its variables, which come in the order in which the tree has
them. Where it is not read, it is refused: for being blank, for the number of variables that the
scan finds, or else for what keeps it from being read. No variable is ever without a value. -/
theorem solve_text_spec {cap : Nat} (positive : 1 ≤ cap) (bounded : cap ≤ 20) (text : String) :
    ∃ solver, Solver.ofCap cap = .ok solver ∧
      ((scanned text).Nodup ∧ ∀ v, v ∈ scanned text ↔
        ∃ piece ∈ lexemes (Text.normalize text.toList), piece.reading = .token (.var v)) ∧
      (∀ e, parse text = .ok e →
        solver.solve text = solver.solveExpr e ∧
        scanned text = e.vars ∧
        (1 ≤ e.vars.length → e.vars.length ≤ cap → solver.variablesOf text = .ok e.vars) ∧
        (¬ (1 ≤ e.vars.length ∧ e.vars.length ≤ cap) →
          ∃ refused, (refused = .noVariables ∨ refused = .tooManyVariables e.vars.length cap) ∧
            solver.variablesOf text = .error refused ∧ solver.solveExpr e = .error refused)) ∧
      (∀ unread, parse text = .error unread →
        solver.solve text = .error (solver.refusal text unread)) ∧
      ∀ v, solver.solve text ≠ .error (.unbound v) := by
  refine ⟨⟨cap, positive, bounded⟩, dif_pos ⟨positive, bounded⟩,
    ⟨nodup_scanned text, fun v => mem_scanned_iff⟩, ?_, ?_, ?_⟩
  · intro e read
    refine ⟨Solver.solve_of_parse _ read, scanned_of_parse read, ?_⟩
    rcases Solver.variablesOf_eq_of_parse ⟨cap, positive, bounded⟩ read with
      ⟨some, few, answer⟩ | ⟨outside, refused⟩
    · exact ⟨fun _ _ => answer, fun outside => absurd ⟨some, few⟩ outside⟩
    · exact ⟨fun some few => absurd ⟨some, few⟩ outside, fun _ => refused⟩
  · intro unread failed
    exact Solver.solve_of_unread _ failed
  · intro v
    cases read : parse text with
    | ok e => rw [Solver.solve_of_parse _ read]; exact Solver.solveExpr_ne_unbound _ e v
    | error unread =>
      rw [Solver.solve_of_unread _ read]
      exact fun same => Solver.refusal_ne_unbound _ text unread v (Except.error.inj same)

/-- A text whose variables do not come in alphabetical order, with its table, and one whose variables
are counted although a character keeps it from being read. -/
theorem solve_text_b_or_not_a :
    let a : Variable := ⟨'a', by decide⟩
    let b : Variable := ⟨'b', by decide⟩
    ∃ solver table, Solver.ofCap 4 = .ok solver ∧
      solver.solve "B or not A" = .ok table ∧
      table.vars = [b, a] ∧ table.results = [true, false, true, true] ∧
      solver.solveExpr (.binary .or (.var b) (.not (.var a))) = .ok table ∧
      solver.variablesOf "B or not A" = .ok [b, a] ∧
      solver.solve "a ? b" = .error (.parse ⟨.unexpectedChar '?', 1⟩) := by
  intro a b
  let e : Expr := .binary .or (.var b) (.not (.var a))
  have read : parse "B or not A" = .ok e := by decide +kernel
  have unread : parse "a ? b" = .error ⟨.unexpectedChar '?', 1⟩ := by decide +kernel
  have four : 1 ≤ 4 ∧ 4 ≤ 20 := by decide
  obtain ⟨solver, made, _, agrees, _, _⟩ := solve_text_spec four.1 four.2 "B or not A"
  obtain ⟨other, again, _, _, refuses, _⟩ := solve_text_spec four.1 four.2 "a ? b"
  obtain rfl : solver = other := Except.ok.inj (made.symm.trans again)
  obtain ⟨same, _, counted, _⟩ := agrees e read
  have cap : solver.cap = 4 := by
    cases made
    rfl
  have few : e.vars.length ≤ solver.cap := by
    rw [cap]
    decide
  obtain ⟨table, answer, tabulates⟩ :
      ∃ table, solver.solveExpr e = .ok table ∧ table.Tabulates e := by
    rcases solver.solveExpr_cases e with ⟨none, _⟩ | ⟨_, many, _⟩ | ⟨_, _, solved⟩
    · exact absurd none (by decide)
    · exact absurd few (Nat.not_le.mpr many)
    · exact solved
  have inked : ¬ "a ? b".toList.all Text.isBlank = true := by decide
  have scan : scanned "a ? b" = [a, b] := by decide +kernel
  refine ⟨solver, table, made, same.trans answer, tabulates.vars.trans (by decide),
    tabulates.results.trans (by decide), answer, counted (by decide) (by decide), ?_⟩
  rw [refuses _ unread, Solver.refusal, cap, if_neg inked, scan]
  rfl

end Switching
