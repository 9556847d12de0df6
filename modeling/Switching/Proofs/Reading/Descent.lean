/-
**Reading turn by turn.**

A reader that calls itself keeps two things that no list of lexemes shows: the calls that wait for the
one that is being made, and a counter of the negations and parentheses that were entered and not yet
left. Here both are part of a state. A turn calls, reads or gives back one thing; an error ends the
reading without leaving what was entered, and leaving where nothing was entered crashes. The turns
come to the answers of the readers, so every reading comes to an end.

* `Descent.step`: one turn;
* `Descent.Stepped`, `Descent.stepped`: what a turn does, case by case;
* `Descent.follows_chain`, `Descent.follows_unary`: the turns come to what the readers find;
* `Descent.exists_outcome`: and so to the answer for all lexemes.
-/

import Mathlib.Logic.Function.Iterate
import Switching.Proofs.Reading.Sentences

namespace Switching

open Switching.Parser

/-! ### States -/

/-- A call that waits for the one that it has made. -/
inductive Pending where
  /-- A connective's level, for its first operand. -/
  | first (op : Connective)
  /-- A connective's level, for the operand behind the connective at byte `start`; a tree was read in
  front of it. -/
  | right (op : Connective) (left : Expr) (depth start : Nat)
  /-- For the operand of the negation at byte `start`. -/
  | negation (start : Nat)
  /-- For what stands in the parenthesis that is opened at byte `start`. -/
  | parenthesis (start : Nat)

/-- What a reading does next. -/
inductive Control where
  /-- It begins to read at a level. -/
  | call (level : Level)
  /-- It begins to read a parenthesis or a leaf. -/
  | atom
  /-- It has read operands of a connective and looks for another one. -/
  | loop (op : Connective) (left : Expr) (depth : Nat)
  /-- It gives a tree to the call that waits for it. -/
  | returned (e : Expr) (depth : Nat)
  | accepted (e : Expr)
  | failed (e : ParseError)
  /-- It has left what it had not entered. -/
  | crashed

/-- A state of a reading. -/
structure Descent where
  /-- The lexemes that were not taken yet. -/
  pieces : List Lexeme
  /-- The negations and parentheses that were entered and not left. -/
  nesting : Nat
  /-- The calls that wait, the latest first. -/
  stack : List Pending
  control : Control

namespace Descent

/-- A reading of all these lexemes. -/
def start (pieces : List Lexeme) : Descent := ⟨pieces, 0, [], .call .whole⟩

def fail (state : Descent) (e : ParseError) : Descent := { state with control := .failed e }

/-- Enters a negation or a parenthesis. -/
def enter (limit : Nat) (state : Descent) (start : Nat) (rest : List Lexeme) (pending : Pending)
    (level : Level) : Descent :=
  if state.nesting < limit then
    ⟨rest, state.nesting + 1, pending :: state.stack, .call level⟩
  else state.fail ⟨.tooDeep, start⟩

/-- Goes on with a tree over operands of some depth. -/
def node (limit : Nat) (state : Descent) (depth start : Nat) (next : Nat → Control) : Descent :=
  if depth < limit then { state with control := next (depth + 1) }
  else state.fail ⟨.tooDeep, start⟩

/-- Leaves a negation or a parenthesis. -/
def leave (state : Descent) (next : Descent → Descent) : Descent :=
  match state.nesting with
  | 0 => { state with control := .crashed }
  | nesting + 1 => next { state with nesting := nesting }

/-! ### Turns -/

/-- Reads a negation, or something else that is no connective. -/
def readUnary (limit : Nat) (state : Descent) : Descent :=
  match state.pieces with
  | ⟨start, _, .unknown c⟩ :: _ => state.fail ⟨.unexpectedChar c, start⟩
  | ⟨start, _, .token .not⟩ :: rest => state.enter limit start rest (.negation start) .unary
  | _ => { state with control := .atom }

/-- Reads a leaf, or enters a parenthesis. -/
def readAtom (limit finish : Nat) (state : Descent) : Descent :=
  match state.pieces with
  | [] => state.fail ⟨.unexpectedEnd, finish⟩
  | ⟨start, _, .unknown c⟩ :: _ => state.fail ⟨.unexpectedChar c, start⟩
  | ⟨_, _, .token (.var v)⟩ :: rest =>
    { state with pieces := rest, control := .returned (.var v) 0 }
  | ⟨_, _, .token (.const value)⟩ :: rest =>
    { state with pieces := rest, control := .returned (.const value) 0 }
  | ⟨start, _, .token .opening⟩ :: rest =>
    state.enter limit start rest (.parenthesis start) .whole
  | ⟨start, _, .token token⟩ :: _ => state.fail ⟨.unexpectedToken token.text, start⟩

/-- Takes a connective, or gives back what was read in front. -/
def readLoop (state : Descent) (op : Connective) (left : Expr) (depth : Nat) : Descent :=
  match state.pieces with
  | ⟨start, _, .unknown c⟩ :: _ => state.fail ⟨.unexpectedChar c, start⟩
  | ⟨start, _, .token token⟩ :: rest =>
    if token = .op op then
      ⟨rest, state.nesting, .right op left depth start :: state.stack, .call (.operand op)⟩
    else { state with control := .returned left depth }
  | [] => { state with control := .returned left depth }

/-- Gives a tree to the latest of the calls that wait, or to the text if none does. -/
def giveBack (limit : Nat) (state : Descent) (e : Expr) (depth : Nat) : Descent :=
  match state.stack with
  | [] =>
    match complete ⟨e, depth, state.pieces⟩ with
    | .ok e => { state with control := .accepted e }
    | .error failure => state.fail failure
  | .first op :: stack => { state with stack := stack, control := .loop op e depth }
  | .right op left leftDepth start :: stack =>
    { state with stack := stack }.node limit (max leftDepth depth) start
      (.loop op (.binary op left e))
  | .negation start :: stack =>
    { state with stack := stack }.leave fun left =>
      left.node limit depth start (.returned (.not e))
  | .parenthesis start :: stack =>
    { state with stack := stack }.leave fun left =>
      match close start ⟨e, depth, left.pieces⟩ with
      | .ok found =>
        { left with pieces := found.rest, control := .returned found.expr found.depth }
      | .error failure => left.fail failure

/-- One turn. -/
def step (limit finish : Nat) (state : Descent) : Descent :=
  match state.control with
  | .call (.joined op) =>
    { state with stack := .first op :: state.stack, control := .call (.operand op) }
  | .call .unary => state.readUnary limit
  | .atom => state.readAtom limit finish
  | .loop op left depth => state.readLoop op left depth
  | .returned e depth => state.giveBack limit e depth
  | _ => state

/-! ### What a turn does -/

/-- The tree of a token that is one. -/
inductive Leaf : Token → Expr → Prop
  | var (v : Variable) : Leaf (.var v) (.var v)
  | const (value : Bool) : Leaf (.const value) (.const value)

/-- A reading that has come to its end. -/
inductive Ended : Control → Prop
  | accepted (e : Expr) : Ended (.accepted e)
  | failed (e : ParseError) : Ended (.failed e)
  | crashed : Ended .crashed

/-- A reading that begins to read an operand. -/
inductive Begins : Control → Prop
  | unary : Begins (.call .unary)
  | atom : Begins .atom

/-- **What a turn does.** -/
inductive Stepped (limit : Nat) : Descent → Descent → Prop
  | down {pieces nesting stack op} :
      Stepped limit ⟨pieces, nesting, stack, .call (.joined op)⟩
        ⟨pieces, nesting, .first op :: stack, .call (.operand op)⟩
  | unary {pieces nesting stack} :
      Stepped limit ⟨pieces, nesting, stack, .call .unary⟩ ⟨pieces, nesting, stack, .atom⟩
  | negation {start spelling rest nesting stack} (room : nesting < limit) :
      Stepped limit ⟨⟨start, spelling, .token .not⟩ :: rest, nesting, stack, .call .unary⟩
        ⟨rest, nesting + 1, .negation start :: stack, .call .unary⟩
  | parenthesis {start spelling rest nesting stack} (room : nesting < limit) :
      Stepped limit ⟨⟨start, spelling, .token .opening⟩ :: rest, nesting, stack, .atom⟩
        ⟨rest, nesting + 1, .parenthesis start :: stack, .call .whole⟩
  | leaf {start spelling token rest nesting stack e} (leaf : Leaf token e) :
      Stepped limit ⟨⟨start, spelling, .token token⟩ :: rest, nesting, stack, .atom⟩
        ⟨rest, nesting, stack, .returned e 0⟩
  | further {start spelling rest nesting stack op left depth} :
      Stepped limit
        ⟨⟨start, spelling, .token (.op op)⟩ :: rest, nesting, stack, .loop op left depth⟩
        ⟨rest, nesting, .right op left depth start :: stack, .call (.operand op)⟩
  | looped {pieces nesting stack op left depth}
      (other : ∀ piece ∈ pieces.head?, piece.reading ≠ .token (.op op)) :
      Stepped limit ⟨pieces, nesting, stack, .loop op left depth⟩
        ⟨pieces, nesting, stack, .returned left depth⟩
  | first {pieces nesting stack op e depth} :
      Stepped limit ⟨pieces, nesting, .first op :: stack, .returned e depth⟩
        ⟨pieces, nesting, stack, .loop op e depth⟩
  | joined {pieces nesting stack op left leftDepth start e depth}
      (shallow : max leftDepth depth < limit) :
      Stepped limit
        ⟨pieces, nesting, .right op left leftDepth start :: stack, .returned e depth⟩
        ⟨pieces, nesting, stack, .loop op (.binary op left e) (max leftDepth depth + 1)⟩
  | negated {pieces nesting stack start e depth} (shallow : depth < limit) :
      Stepped limit ⟨pieces, nesting + 1, .negation start :: stack, .returned e depth⟩
        ⟨pieces, nesting, stack, .returned (.not e) (depth + 1)⟩
  | closed {place last rest nesting stack start e depth} :
      Stepped limit
        ⟨⟨place, last, .token .closing⟩ :: rest, nesting + 1, .parenthesis start :: stack,
          .returned e depth⟩
        ⟨rest, nesting, stack, .returned e depth⟩
  | accepted {pieces nesting e depth} :
      Stepped limit ⟨pieces, nesting, [], .returned e depth⟩ ⟨pieces, nesting, [], .accepted e⟩
  | ended {state} (ended : Ended state.control) : Stepped limit state state
  | fails {state later} {e : ParseError} (other : e.kind ≠ .tooDeep)
      (failed : later.control = .failed e) (nesting : later.nesting ≤ state.nesting) :
      Stepped limit state later
  /-- A negation or a parenthesis is not entered. -/
  | full {start spelling token rest nesting stack control}
      (nests : token = .not ∨ token = .opening) (begins : Begins control)
      (full : limit ≤ nesting) :
      Stepped limit ⟨⟨start, spelling, .token token⟩ :: rest, nesting, stack, control⟩
        ⟨⟨start, spelling, .token token⟩ :: rest, nesting, stack, .failed ⟨.tooDeep, start⟩⟩
  /-- A tree would be too deep. -/
  | deepNot {pieces nesting stack start e depth} (deep : limit ≤ depth) :
      Stepped limit ⟨pieces, nesting + 1, .negation start :: stack, .returned e depth⟩
        ⟨pieces, nesting, stack, .failed ⟨.tooDeep, start⟩⟩
  | deepJoin {pieces nesting stack op left leftDepth start e depth}
      (deep : limit ≤ max leftDepth depth) :
      Stepped limit
        ⟨pieces, nesting, .right op left leftDepth start :: stack, .returned e depth⟩
        ⟨pieces, nesting, stack, .failed ⟨.tooDeep, start⟩⟩
  /-- What is left was not entered. -/
  | underflow {pieces stack start pending e depth}
      (inside : pending = .negation start ∨ pending = .parenthesis start) :
      Stepped limit ⟨pieces, 0, pending :: stack, .returned e depth⟩ ⟨pieces, 0, stack, .crashed⟩

section Turns

variable {limit finish : Nat} {pieces : List Lexeme} {nesting : Nat} {stack : List Pending}

theorem kind_of_complete {parsed : Parsed} {e : ParseError} (failed : complete parsed = .error e) :
    e.kind ≠ .tooDeep := by
  unfold complete at failed
  split at failed <;> cases failed <;> exact ParseErrorKind.noConfusion

theorem kind_of_close {start : Nat} {inner : Parsed} {e : ParseError}
    (failed : close start inner = .error e) : e.kind ≠ .tooDeep := by
  unfold close at failed
  split at failed <;> cases failed <;> exact ParseErrorKind.noConfusion

theorem Stepped.fail {state : Descent} {kind : ParseErrorKind} (other : kind ≠ .tooDeep)
    (place : Nat) : Stepped limit state (state.fail ⟨kind, place⟩) :=
  .fails other rfl (Nat.le_refl _)

theorem stepped_readUnary :
    Stepped limit ⟨pieces, nesting, stack, .call .unary⟩
      (readUnary limit ⟨pieces, nesting, stack, .call .unary⟩) := by
  unfold readUnary
  split
  · exact .fail ParseErrorKind.noConfusion _
  · rename_i start spelling rest same
    simp only at same
    subst same
    unfold enter
    split
    · rename_i room
      exact .negation room
    · rename_i full
      exact .full (.inl rfl) .unary (Nat.le_of_not_lt full)
  · exact .unary

theorem stepped_readAtom :
    Stepped limit ⟨pieces, nesting, stack, .atom⟩
      (readAtom limit finish ⟨pieces, nesting, stack, .atom⟩) := by
  unfold readAtom
  split
  · exact .fail ParseErrorKind.noConfusion _
  · exact .fail ParseErrorKind.noConfusion _
  · rename_i start spelling v rest same
    simp only at same
    subst same
    exact .leaf (.var v)
  · rename_i start spelling value rest same
    simp only at same
    subst same
    exact .leaf (.const value)
  · rename_i start spelling rest same
    simp only at same
    subst same
    unfold enter
    split
    · rename_i room
      exact .parenthesis room
    · rename_i full
      exact .full (.inr rfl) .atom (Nat.le_of_not_lt full)
  · exact .fail ParseErrorKind.noConfusion _

theorem stepped_readLoop (op : Connective) (left : Expr) (depth : Nat) :
    Stepped limit ⟨pieces, nesting, stack, .loop op left depth⟩
      (readLoop ⟨pieces, nesting, stack, .loop op left depth⟩ op left depth) := by
  unfold readLoop
  split
  · exact .fail ParseErrorKind.noConfusion _
  · rename_i start spelling token rest same
    simp only at same
    subst same
    split
    · rename_i same
      subst same
      exact .further
    · rename_i other
      refine .looped fun piece member => ?_
      cases member
      exact fun same => other (Reading.token.inj same)
  · rename_i same
    simp only at same
    subst same
    exact .looped fun piece member => by cases member

theorem stepped_giveBack (e : Expr) (depth : Nat) :
    Stepped limit ⟨pieces, nesting, stack, .returned e depth⟩
      (giveBack limit ⟨pieces, nesting, stack, .returned e depth⟩ e depth) := by
  cases stack with
  | nil =>
    show Stepped limit _ (match complete ⟨e, depth, pieces⟩ with | .ok e => _ | .error failure => _)
    cases ends : complete ⟨e, depth, pieces⟩ with
    | ok found =>
      obtain ⟨_, rfl⟩ := complete_eq_ok ends
      exact .accepted
    | error failure => exact .fail (kind_of_complete ends) _
  | cons pending stack =>
    cases pending with
    | first op => exact .first
    | right op left leftDepth start =>
      show Stepped limit _ (node limit _ (max leftDepth depth) start _)
      unfold node
      split
      · rename_i shallow
        exact .joined shallow
      · rename_i deep
        exact .deepJoin (Nat.le_of_not_lt deep)
    | negation start =>
      cases nesting with
      | zero => exact .underflow (.inl rfl)
      | succ nesting =>
        show Stepped limit _ (node limit _ depth start _)
        unfold node
        split
        · rename_i shallow
          exact .negated shallow
        · rename_i deep
          exact .deepNot (Nat.le_of_not_lt deep)
    | parenthesis start =>
      cases nesting with
      | zero => exact .underflow (.inr rfl)
      | succ nesting =>
        show Stepped limit _ (match close start ⟨e, depth, pieces⟩ with
          | .ok found => _ | .error failure => _)
        cases ends : close start ⟨e, depth, pieces⟩ with
        | ok found =>
          obtain ⟨place, last, same⟩ := close_eq_ok ends
          cases same
          exact .closed
        | error failure => exact .fails (kind_of_close ends) rfl (Nat.le_succ _)

/-- **There is nothing else that a turn does.** -/
theorem stepped (state : Descent) : Stepped limit state (state.step limit finish) := by
  obtain ⟨pieces, nesting, stack, control⟩ := state
  cases control with
  | call level =>
    cases level with
    | joined op => exact .down
    | unary => exact stepped_readUnary
  | atom => exact stepped_readAtom
  | loop op left depth => exact stepped_readLoop op left depth
  | returned e depth => exact stepped_giveBack e depth
  | accepted e => exact .ended (.accepted e)
  | failed e => exact .ended (.failed e)
  | crashed => exact .ended .crashed

end Turns

/-! ### Runs -/

section Runs

variable {limit finish : Nat} {first second third : Descent}

/-- The second state comes after finitely many turns. -/
def Runs (limit finish : Nat) (first second : Descent) : Prop :=
  ∃ turns, (step limit finish)^[turns] first = second

theorem Runs.refl (state : Descent) : Runs limit finish state state := ⟨0, rfl⟩

theorem Runs.step (later : Runs limit finish (first.step limit finish) second) :
    Runs limit finish first second := by
  obtain ⟨turns, reached⟩ := later
  exact ⟨turns + 1, reached⟩

theorem Runs.trans (runs : Runs limit finish first second) (later : Runs limit finish second third) :
    Runs limit finish first third := by
  obtain ⟨turns, rfl⟩ := runs
  obtain ⟨more, reached⟩ := later
  exact ⟨more + turns, (Function.iterate_add_apply _ more turns first).trans reached⟩

/-- The reading comes to the answer of a reader, with the same calls waiting. -/
def Answers (limit finish nesting : Nat) (stack : List Pending) (state : Descent) :
    Except ParseError Parsed → Prop
  | .ok found =>
    Runs limit finish state ⟨found.rest, nesting, stack, .returned found.expr found.depth⟩
  | .error e => ∃ last, Runs limit finish state last ∧ last.control = .failed e

theorem Answers.behind {nesting : Nat} {stack : List Pending} {answer : Except ParseError Parsed}
    (answers : Answers limit finish nesting stack second answer)
    (runs : Runs limit finish first second) : Answers limit finish nesting stack first answer := by
  cases answer with
  | ok found => exact runs.trans answers
  | error e =>
    obtain ⟨last, later, failed⟩ := answers
    exact ⟨last, runs.trans later, failed⟩

theorem Answers.step {nesting : Nat} {stack : List Pending} {answer : Except ParseError Parsed}
    (answers : Answers limit finish nesting stack (first.step limit finish) answer) :
    Answers limit finish nesting stack first answer := answers.behind (.step (.refl _))

theorem Answers.failed {nesting : Nat} {stack : List Pending} {e : ParseError}
    (failed : first.control = .failed e) : Answers limit finish nesting stack first (.error e) :=
  ⟨first, .refl _, failed⟩

/-- Calls of the level come to what the reader finds, whatever waits for them. -/
def Follows (limit finish nesting : Nat) (level : Level) (reader : Reader) : Prop :=
  ∀ pieces stack, Answers limit finish nesting stack ⟨pieces, nesting, stack, .call level⟩
    (reader pieces)

end Runs

/-! ### Chains -/

section Chains

variable {limit finish nesting : Nat} {op : Connective} {operand : Reader}

theorem step_loop_op {start : Nat} {spelling : List Char} {rest : List Lexeme}
    {stack : List Pending} {left : Expr} {depth : Nat} :
    step limit finish
        ⟨⟨start, spelling, .token (.op op)⟩ :: rest, nesting, stack, .loop op left depth⟩ =
      ⟨rest, nesting, .right op left depth start :: stack, .call (.operand op)⟩ :=
  if_pos rfl

/-- **The loop of a connective comes to what its chain finds.** -/
theorem follows_chainFrom (follows : Follows limit finish nesting (.operand op) operand)
    (stack : List Pending) (left : Expr) (depth : Nat) (pieces : List Lexeme) :
    Answers limit finish nesting stack ⟨pieces, nesting, stack, .loop op left depth⟩
      (chainFrom limit op operand left depth pieces) := by
  fun_induction chainFrom limit op operand left depth pieces with
  | case1 left depth start spelling c rest => exact .step (.failed rfl)
  | case2 left depth start spelling rest e read =>
    obtain ⟨last, runs, failed⟩ := read ▸ follows rest (.right op left depth start :: stack)
    refine .step ?_
    rw [step_loop_op]
    exact ⟨last, runs, failed⟩
  | case3 left depth start spelling rest right read shallow ih =>
    -- The tree of the operand comes back to the call that waits for it, which goes on with its loop.
    have runs := read ▸ follows rest (.right op left depth start :: stack)
    refine .step ?_
    rw [step_loop_op]
    refine Answers.behind (.step ?_) runs
    show Answers limit finish nesting stack (node limit _ (max depth right.depth) start _) _
    rw [node, if_pos shallow]
    exact ih
  | case4 left depth start spelling rest right read deep =>
    have runs := read ▸ follows rest (.right op left depth start :: stack)
    refine .step ?_
    rw [step_loop_op]
    refine Answers.behind (.step ?_) runs
    show Answers limit finish nesting stack (node limit _ (max depth right.depth) start _) _
    rw [node, if_neg deep]
    exact .failed rfl
  | case5 left depth start spelling token rest other =>
    refine .step ?_
    show Answers limit finish nesting stack (if token = .op op then _ else _) _
    rw [if_neg other]
    exact .refl _
  | case6 left depth => exact .step (.refl _)

theorem follows_chain (follows : Follows limit finish nesting (.operand op) operand) :
    Follows limit finish nesting (.joined op) (chain limit op operand) := by
  intro pieces stack
  have called := follows pieces (.first op :: stack)
  refine .step ?_
  cases read : operand pieces with
  | error e =>
    rw [chain_of_error read]
    rw [read] at called
    exact called
  | ok found =>
    rw [chain_of_ok read]
    rw [read] at called
    exact Answers.behind (.step (follows_chainFrom follows stack _ _ _)) called

theorem follows_readerAt (follows : Follows limit finish nesting .unary operand) (level : Level) :
    Follows limit finish nesting level (readerAt limit operand level) :=
  readerAt_induction follows (fun _ _ => follows_chain) level

end Chains

/-! ### Negations, parentheses and leaves -/

section Unary

variable {limit finish nesting allowance start : Nat} {spelling : List Char} {rest : List Lexeme}
  {stack : List Pending}

theorem enter_of_lt (room : nesting < limit) (pieces : List Lexeme) (control : Control)
    (pending : Pending) (level : Level) :
    enter limit ⟨pieces, nesting, stack, control⟩ start rest pending level =
      ⟨rest, nesting + 1, pending :: stack, .call level⟩ :=
  if_pos room

theorem enter_of_le (full : limit ≤ nesting) (pieces : List Lexeme) (control : Control)
    (pending : Pending) (level : Level) :
    enter limit ⟨pieces, nesting, stack, control⟩ start rest pending level =
      ⟨pieces, nesting, stack, .failed ⟨.tooDeep, start⟩⟩ :=
  if_neg (Nat.not_lt_of_ge full)

section Nested

variable (whole : nesting + allowance = limit)
  (inside : ∀ less, allowance = less + 1 →
    Follows limit finish (nesting + 1) .unary (unary limit finish less))

include whole inside

theorem answers_not (start : Nat) (spelling : List Char) (rest : List Lexeme)
    (stack : List Pending) :
    Answers limit finish nesting stack
      ⟨⟨start, spelling, .token .not⟩ :: rest, nesting, stack, .call .unary⟩
      (unary limit finish allowance (⟨start, spelling, .token .not⟩ :: rest)) := by
  refine .step ?_
  show Answers limit finish nesting stack
    (enter limit ⟨_, nesting, stack, _⟩ start rest (.negation start) .unary) _
  cases allowance with
  | zero =>
    rw [unary_zero _ _ _ _ _ (.inl rfl), enter_of_le (by omega)]
    exact .failed rfl
  | succ less =>
    rw [unary_not, enter_of_lt (by omega)]
    have called := inside less rfl rest (.negation start :: stack)
    cases read : unary limit finish less rest with
    | error e =>
      rw [read] at called
      exact called
    | ok inner =>
      rw [read] at called
      refine Answers.behind (.step ?_) called
      show Answers limit finish nesting stack (node limit _ inner.depth start _)
        (if inner.depth < limit then _ else _)
      unfold node
      split
      · exact .refl _
      · exact .failed rfl

theorem answers_opening (start : Nat) (spelling : List Char) (rest : List Lexeme)
    (stack : List Pending) :
    Answers limit finish nesting stack
      ⟨⟨start, spelling, .token .opening⟩ :: rest, nesting, stack, .atom⟩
      (unary limit finish allowance (⟨start, spelling, .token .opening⟩ :: rest)) := by
  refine .step ?_
  show Answers limit finish nesting stack
    (enter limit ⟨_, nesting, stack, _⟩ start rest (.parenthesis start) .whole) _
  cases allowance with
  | zero =>
    rw [unary_zero _ _ _ _ _ (.inr rfl), enter_of_le (by omega)]
    exact .failed rfl
  | succ less =>
    rw [unary_opening, enter_of_lt (by omega)]
    have called := follows_readerAt (inside less rfl) .whole rest (.parenthesis start :: stack)
    cases read : readerAt limit (unary limit finish less) .whole rest with
    | error e =>
      rw [read] at called
      exact called
    | ok inner =>
      rw [read] at called
      refine Answers.behind (.step ?_) called
      show Answers limit finish nesting stack (match close start inner with
        | .ok found => _ | .error failure => _) (close start inner)
      cases close start inner with
      | ok found => exact .refl _
      | error e => exact .failed rfl

/-- The innermost calls come to what the innermost reader finds, if those inside do. -/
theorem follows_unary_of : Follows limit finish nesting .unary (unary limit finish allowance) := by
  intro pieces stack
  match pieces with
  | [] =>
    rw [unary_nil]
    exact .step (.step (.failed rfl))
  | ⟨start, spelling, .unknown c⟩ :: rest =>
    rw [unary_unknown]
    exact .step (.failed rfl)
  | ⟨start, spelling, .token (.var v)⟩ :: rest =>
    rw [unary_var]
    exact .step (.step (.refl _))
  | ⟨start, spelling, .token (.const value)⟩ :: rest =>
    rw [unary_const]
    exact .step (.step (.refl _))
  | ⟨start, spelling, .token (.op op)⟩ :: rest =>
    rw [unary_op]
    exact .step (.step (.failed rfl))
  | ⟨start, spelling, .token .closing⟩ :: rest =>
    rw [unary_closing]
    exact .step (.step (.failed rfl))
  | ⟨start, spelling, .token .not⟩ :: rest => exact answers_not whole inside start spelling rest stack
  | ⟨start, spelling, .token .opening⟩ :: rest =>
    exact .step (answers_opening whole inside start spelling rest stack)

end Nested

/-- **The innermost calls come to what the innermost reader finds.** What it is still allowed is what
the nesting leaves of the limit; the induction is on that. -/
theorem follows_unary (whole : nesting + allowance = limit) :
    Follows limit finish nesting .unary (unary limit finish allowance) := by
  induction allowance generalizing nesting with
  | zero => exact follows_unary_of whole nofun
  | succ allowance ih =>
    refine follows_unary_of whole fun less same => ?_
    cases same
    exact ih (by omega)

end Unary

/-! ### Whole readings -/

/-- What a reading has come to, if it has come to its end. -/
def outcome? (state : Descent) : Option (Except ParseError Expr) :=
  match state.control with
  | .accepted e => some (.ok e)
  | .failed e => some (.error e)
  | _ => none

theorem failed_of_outcome {state : Descent} {e : ParseError}
    (outcome : state.outcome? = some (.error e)) : state.control = .failed e := by
  unfold outcome? at outcome
  split at outcome
  · cases outcome
  · rename_i same
    cases outcome
    exact same
  · cases outcome

/-- **Every reading comes to an end**, with what is read whole. -/
theorem exists_outcome (limit finish : Nat) (pieces : List Lexeme) :
    ∃ turns, ((step limit finish)^[turns] (start pieces)).outcome? =
      some (whole limit finish pieces) := by
  have follows : Follows limit finish 0 .unary (unary limit finish limit) :=
    follows_unary (Nat.zero_add limit)
  have called : Answers limit finish 0 [] (start pieces)
    (expression limit (unary limit finish limit) pieces) := follows_readerAt follows .whole pieces []
  unfold whole
  split
  · rename_i e read
    rw [read] at called
    obtain ⟨last, ⟨turns, reached⟩, failed⟩ := called
    refine ⟨turns, ?_⟩
    rw [reached, outcome?, failed]
  · rename_i found read
    rw [read] at called
    obtain ⟨turns, reached⟩ := called
    refine ⟨turns + 1, ?_⟩
    rw [Function.iterate_succ_apply', reached]
    show outcome? (match complete found with | .ok e => _ | .error failure => _) = _
    cases complete found with
    | ok e => rfl
    | error e => rfl

/-- Where one nesting is allowed, the second of two negations is not entered. -/
example :
    let pieces : List Lexeme := [⟨0, ['!'], .token .not⟩, ⟨1, ['!'], .token .not⟩]
    ((step 1 2)^[5] (start pieces)).outcome? = some (.error ⟨.tooDeep, 1⟩) := rfl

end Descent

end Switching
