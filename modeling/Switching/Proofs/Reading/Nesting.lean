/-
**Nesting and depth.**

A reading counts the negations and parentheses that it has entered and carries the depths of the trees
along. Both are exact. The counter says how many negations and parentheses there are around the place
that was reached, which can be told from the tokens in front of it; a call that gives a tree back gives
its depth, has taken some lexemes and no more, and has left what it entered. So where a reading stops
because something is too deep, it is.

* `enclosing`: the negations and parentheses around a place, by the tokens in front of it;
* `Exceeds`: what is too deep in a list of lexemes;
* `Descent.Held`, `Descent.Kept`: what the waiting calls have, and what every turn keeps;
* `Descent.Held.placed`: where the waiting calls stand in the lexemes;
* `Descent.exceeds_of_stepped`: what is found too deep exceeds the limit;
* `Descent.nesting_spec`: every state of every reading.
-/

import Mathlib.Data.List.DropRight
import Switching.Proofs.Reading.Descent
import Switching.Proofs.Reading.Failures

namespace Switching

open Switching.Parser

/-! ### What is around a place -/

/-- What is open behind an operand: the negations in front of it end with it. -/
def endOperand (opened : List Token) : List Token := opened.dropWhile (· = .not)

/-- The negations and parentheses that are open behind one more token, the latest first. -/
def openBehind (opened : List Token) : Token → List Token
  | .not => .not :: opened
  | .opening => .opening :: opened
  | .op _ => opened
  | .closing => endOperand opened.tail
  | .var _ | .const _ => endOperand opened

/-- **The negations and parentheses around the place behind these tokens**, the latest first. -/
def enclosing (tokens : List Token) : List Token := tokens.foldl openBehind []

theorem endOperand_endOperand (opened : List Token) :
    endOperand (endOperand opened) = endOperand opened := List.dropWhile_idempotent _ _

theorem endOperand_not (opened : List Token) :
    endOperand (.not :: opened) = endOperand opened :=
  List.dropWhile_cons_of_pos rfl

theorem endOperand_opening (opened : List Token) :
    endOperand (.opening :: opened) = .opening :: opened :=
  List.dropWhile_cons_of_neg (by decide)

/-- **Behind an operand is open what was open in front of it**, but for the negations of it. -/
theorem Derives.foldl_openBehind {nesting : Nat} {level : Level} {tokens : List Token} {e : Expr}
    (derived : Derives nesting level tokens e) (opened : List Token) :
    tokens.foldl openBehind opened = endOperand opened := by
  induction derived generalizing opened with
  | var _ v => rfl
  | const _ value => rfl
  | not _ ih => rw [List.foldl_cons, openBehind, ih, endOperand_not]
  | enclosed _ ih =>
    rw [List.foldl_cons, openBehind, List.foldl_append, ih, endOperand_opening]
    rfl
  | single _ ih => exact ih opened
  | join _ _ left right =>
    rw [List.foldl_append, left, List.foldl_cons, openBehind, right, endOperand_endOperand]

/-- In `not ( 1 or not` and in `not ( 1 )`. -/
example : enclosing [.not, .opening, .const true, .op .or, .not] = [.not, .opening, .not] ∧
    enclosing [.not, .opening, .const true, .closing] = [] := by
  decide

/-- The token is no part of an operand of the connective that begins behind it: it opens a
parenthesis, or binds less tightly. -/
def Parts (op : Connective) (token : Token) : Prop :=
  token = .opening ∨ ∃ other, token = .op other ∧ other.strength < op.strength

theorem Parts.mono {op other : Connective} {token : Token} (parts : Parts op token)
    (tighter : op.strength < other.strength) : Parts other token := by
  rcases parts with opens | ⟨looser, same, weaker⟩
  · exact .inl opens
  · exact .inr ⟨looser, same, Nat.lt_trans weaker tighter⟩

/-- **The token at a byte is too deep**: a negation or a parenthesis inside of as many as the limit
allows, or a negation or a connective over operands that are as deep as the limit allows. -/
inductive Exceeds (limit : Nat) (all : List Lexeme) (place : Nat) : Prop
  | nested {before after : List Lexeme} {spelling : List Char} {token : Token} {tokens : List Token}
      (split : all = before ++ ⟨place, spelling, .token token⟩ :: after)
      (nests : token = .not ∨ token = .opening) (carried : Carries before tokens)
      (full : (enclosing tokens).length = limit)
  | negated {before operand after : List Lexeme} {spelling : List Char} {tokens : List Token}
      {e : Expr} (split : all = before ++ ⟨place, spelling, .token .not⟩ :: (operand ++ after))
      (carried : Carries operand tokens) (derived : Derives limit .unary tokens e)
      (deep : e.depth = limit)
  /-- The operands are all that stands on both sides and binds tightly enough. -/
  | joined {before left right after : List Lexeme} {spelling : List Char} {op : Connective}
      {front first second : List Token} {l r : Expr}
      (split : all =
        before ++ (left ++ ⟨place, spelling, .token (.op op)⟩ :: (right ++ after)))
      (carried : Carries before front) (parts : ∀ last ∈ front.getLast?, Parts op last)
      (carriedLeft : Carries left first) (derivedLeft : Derives limit (.joined op) first l)
      (carriedRight : Carries right second) (derivedRight : Derives limit (.operand op) second r)
      (behind : Behind (.operand op) after) (deep : max l.depth r.depth = limit)

/-- What was taken opens and closes what is in it. -/
theorem Parser.Took.opened {limit allowance : Nat} {level : Level} {pieces : List Lexeme}
    {found : Parsed} (took : Took limit allowance level pieces found) :
    ∃ used tokens, pieces = used ++ found.rest ∧ Carries used tokens ∧
      ∀ opened, tokens.foldl openBehind opened = endOperand opened := by
  obtain ⟨used, tokens, whole, carried, derived, _⟩ := took
  exact ⟨used, tokens, whole, carried, derived.foldl_openBehind⟩

namespace Descent

/-! ### The calls that wait -/

/-- What a waiting call has entered. -/
def opener? : Pending → Option Token
  | .negation _ => some .not
  | .parenthesis _ => some .opening
  | .first _ | .right .. => none

/-- What the waiting calls have entered, the latest first. -/
def openers (stack : List Pending) : List Token := stack.filterMap opener?

/-- A call of a level, with the calls that wait for it. -/
structure Call where
  level : Level
  pieces : List Lexeme
  nesting : Nat
  stack : List Pending

/-- **What the waiting calls have**, from one call up to another that was made meanwhile: the operands
that were read in front of it, and what was entered. -/
inductive Held (limit : Nat) (origin : Call) : Call → Prop
  | origin : Held limit origin origin
  | first {op : Connective} {pieces : List Lexeme} {nesting : Nat} {stack : List Pending}
      (held : Held limit origin ⟨.joined op, pieces, nesting, stack⟩) :
      Held limit origin ⟨.operand op, pieces, nesting, .first op :: stack⟩
  | right {op : Connective} {pieces rest : List Lexeme} {nesting : Nat} {stack : List Pending}
      {left : Expr} {depth start : Nat} {spelling : List Char}
      (held : Held limit origin ⟨.joined op, pieces, nesting, stack⟩)
      (took : Took limit (limit - nesting) (.joined op) pieces
        ⟨left, depth, ⟨start, spelling, .token (.op op)⟩ :: rest⟩) :
      Held limit origin ⟨.operand op, rest, nesting, .right op left depth start :: stack⟩
  | negation {rest : List Lexeme} {nesting start : Nat} {stack : List Pending}
      {spelling : List Char} (room : nesting < limit)
      (held : Held limit origin
        ⟨.unary, ⟨start, spelling, .token .not⟩ :: rest, nesting, stack⟩) :
      Held limit origin ⟨.unary, rest, nesting + 1, .negation start :: stack⟩
  | parenthesis {rest : List Lexeme} {nesting start : Nat} {stack : List Pending}
      {spelling : List Char} (room : nesting < limit)
      (held : Held limit origin
        ⟨.unary, ⟨start, spelling, .token .opening⟩ :: rest, nesting, stack⟩) :
      Held limit origin ⟨.whole, rest, nesting + 1, .parenthesis start :: stack⟩

/-- Where a call stands in the lexemes. -/
structure Placed (limit : Nat) (all : List Lexeme) (call : Call) (before : List Lexeme)
    (tokens : List Token) : Prop where
  split : all = before ++ call.pieces
  carried : Carries before tokens
  around : enclosing tokens = openers call.stack
  counted : call.nesting = (openers call.stack).length
  within : call.nesting ≤ limit
  parts : ∀ op, call.level = .joined op → ∀ last ∈ tokens.getLast?, Parts op last
  /-- A level of a connective is not called for the operand of a negation. -/
  unnegated : ∀ op, call.level = .joined op →
    endOperand (openers call.stack) = openers call.stack

variable {limit : Nat} {origin : Call} {all : List Lexeme}

theorem enclosing_append_singleton (tokens : List Token) (token : Token) :
    enclosing (tokens ++ [token]) = openBehind (enclosing tokens) token := by
  rw [enclosing, List.foldl_append, List.foldl_cons, List.foldl_nil, enclosing]

/-- The operands of a connective at a level of its own bind more tightly. -/
theorem strength_lt_of_operand {op other : Connective}
    (inside : Level.operand op = .joined other) : op.strength < other.strength := by
  have tighter := Level.strength_operand op
  rw [inside] at tighter
  exact Nat.lt_of_lt_of_eq (Nat.lt_succ_self _) tighter.symm

/-- What is entered is around the places in it. -/
theorem Placed.enter {level : Level} {rest before : List Lexeme} {nesting start : Nat}
    {spelling : List Char} {token : Token} {tokens : List Token} {stack : List Pending}
    {pending : Pending}
    (placed : Placed limit all ⟨.unary, ⟨start, spelling, .token token⟩ :: rest, nesting, stack⟩
      before tokens)
    (room : nesting < limit) (opens : opener? pending = some token)
    (kind : token = .not ∧ level = .unary ∨ token = .opening) :
    Placed limit all ⟨level, rest, nesting + 1, pending :: stack⟩
      (before ++ [⟨start, spelling, .token token⟩]) (tokens ++ [token]) := by
  have more : openers (pending :: stack) = token :: openers stack :=
    List.filterMap_cons_some opens
  refine ⟨?_, ?_, ?_, ?_, room, ?_, ?_⟩
  · rw [placed.split, List.append_assoc]
    rfl
  · exact placed.carried.append (carries_singleton start spelling token)
  · rw [enclosing_append_singleton, placed.around, more]
    rcases kind with ⟨rfl, _⟩ | rfl <;> rfl
  · rw [more, List.length_cons]
    exact congrArg (· + 1) placed.counted
  · intro op joined last member
    rw [List.getLast?_concat] at member
    cases member
    rcases kind with ⟨_, unary⟩ | opening
    · cases unary.symm.trans joined
    · exact .inl opening
  · intro op joined
    rcases kind with ⟨_, unary⟩ | opening
    · cases unary.symm.trans joined
    · rw [more, opening, endOperand_opening]

/-- **Where the waiting calls stand**: behind tokens around which just that is open which they have
entered. -/
theorem Held.placed {call : Call} (held : Held limit ⟨.whole, all, 0, []⟩ call) :
    ∃ before tokens, Placed limit all call before tokens := by
  induction held with
  | origin =>
    refine ⟨[], [], rfl, carries_nil_iff.mpr rfl, rfl, rfl, Nat.zero_le _, ?_, ?_⟩
    · exact fun _ _ _ member => absurd member (by simp)
    · exact fun _ _ => rfl
  | @first op pieces nesting stack _ ih =>
    obtain ⟨before, tokens, placed⟩ := ih
    refine ⟨before, tokens, placed.split, placed.carried, placed.around, placed.counted,
      placed.within, ?_, ?_⟩
    · intro other inside last member
      exact (placed.parts op rfl last member).mono (strength_lt_of_operand inside)
    · exact fun _ _ => placed.unnegated op rfl
  | @right op pieces rest nesting stack left depth start spelling _ took ih =>
    obtain ⟨before, tokens, placed⟩ := ih
    obtain ⟨used, operand, whole, carried, opened⟩ := took.opened
    refine ⟨before ++ (used ++ [⟨start, spelling, .token (.op op)⟩]),
      tokens ++ (operand ++ [.op op]), ?_, ?_, ?_, placed.counted, placed.within, ?_, ?_⟩
    · rw [placed.split]
      show before ++ pieces = _
      rw [whole]
      simp
    · exact placed.carried.append (carried.append (carries_singleton start spelling _))
    · -- The operand in front closes what it opens, and no negation waits for a connective's level.
      rw [← List.append_assoc, enclosing_append_singleton]
      show enclosing (tokens ++ operand) = openers stack
      rw [enclosing, List.foldl_append, opened]
      exact (congrArg endOperand placed.around).trans (placed.unnegated op rfl)
    · intro other inside last member
      rw [← List.append_assoc, List.getLast?_concat] at member
      cases member
      exact .inr ⟨op, rfl, strength_lt_of_operand inside⟩
    · exact fun _ _ => placed.unnegated op rfl
  | negation room _ ih =>
    obtain ⟨before, tokens, placed⟩ := ih
    exact ⟨_, _, placed.enter room rfl (.inl ⟨rfl, rfl⟩)⟩
  | parenthesis room _ ih =>
    obtain ⟨before, tokens, placed⟩ := ih
    exact ⟨_, _, placed.enter room rfl (.inr rfl)⟩

/-! ### Turns -/

/-- **What every turn keeps**, during a call. -/
inductive Kept (limit : Nat) (origin : Call) : Descent → Prop
  | call {level : Level} {pieces : List Lexeme} {nesting : Nat} {stack : List Pending}
      (held : Held limit origin ⟨level, pieces, nesting, stack⟩) :
      Kept limit origin ⟨pieces, nesting, stack, .call level⟩
  | atom {pieces : List Lexeme} {nesting : Nat} {stack : List Pending}
      (held : Held limit origin ⟨.unary, pieces, nesting, stack⟩) :
      Kept limit origin ⟨pieces, nesting, stack, .atom⟩
  /-- A connective's level has read operands. -/
  | loop {op : Connective} {entry pieces : List Lexeme} {nesting : Nat} {stack : List Pending}
      {left : Expr} {depth : Nat}
      (held : Held limit origin ⟨.joined op, entry, nesting, stack⟩)
      (took : Took limit (limit - nesting) (.joined op) entry ⟨left, depth, pieces⟩)
      (behind : Behind (.operand op) pieces) :
      Kept limit origin ⟨pieces, nesting, stack, .loop op left depth⟩
  /-- A level has read what stands for its tree. -/
  | returned {level : Level} {entry pieces : List Lexeme} {nesting : Nat} {stack : List Pending}
      {e : Expr} {depth : Nat} (held : Held limit origin ⟨level, entry, nesting, stack⟩)
      (took : Took limit (limit - nesting) level entry ⟨e, depth, pieces⟩)
      (behind : Behind level pieces) :
      Kept limit origin ⟨pieces, nesting, stack, .returned e depth⟩
  | accepted {pieces : List Lexeme} {nesting : Nat} {stack : List Pending} {e : Expr} :
      Kept limit origin ⟨pieces, nesting, stack, .accepted e⟩
  | failed {pieces : List Lexeme} {nesting : Nat} {stack : List Pending} {e : ParseError} :
      Kept limit origin ⟨pieces, nesting, stack, .failed e⟩

/-- The call has given its tree back. -/
def Returned (stack : List Pending) (state : Descent) : Prop :=
  (∃ e depth, state.control = .returned e depth) ∧ state.stack = stack

/-- A negation or a parenthesis that was entered is one nesting less inside. -/
theorem allowance_eq {nesting : Nat} (room : nesting < limit) :
    limit - (nesting + 1) + 1 = limit - nesting := by omega

/-- **A turn keeps it** until the call has given its tree back. -/
theorem Kept.step {state : Descent} (kept : Kept limit origin state)
    (inside : Returned origin.stack state → state.stack = []) (finish : Nat) :
    Kept limit origin (state.step limit finish) := by
  have stepped : Stepped limit state (state.step limit finish) := stepped state
  generalize state.step limit finish = later at stepped ⊢
  cases stepped with
  | down =>
    cases kept with
    | call held => exact .call (.first held)
  | unary =>
    cases kept with
    | call held => exact .atom held
  | negation room =>
    cases kept with
    | call held => exact .call (.negation room held)
  | parenthesis room =>
    cases kept with
    | atom held => exact .call (.parenthesis room held)
  | leaf leaf =>
    cases kept with
    | atom held =>
      refine .returned held ?_ (behind_unary _)
      cases leaf with
      | var v => exact .leaf (.var _ v) rfl _
      | const value => exact .leaf (.const _ value) rfl _
  | further =>
    cases kept with
    | loop held took behind => exact .call (.right held took)
  | looped other =>
    cases kept with
    | loop held took behind => exact .returned held took (behind.joined other)
  | first =>
    cases kept with
    | returned held took behind =>
      cases held with
      -- Were no call waiting that was made since, the tree would have been given back already.
      | origin => cases inside ⟨⟨_, _, rfl⟩, rfl⟩
      | first held => exact .loop held took.single behind
  | joined shallow =>
    cases kept with
    | returned held took behind =>
      cases held with
      | origin => cases inside ⟨⟨_, _, rfl⟩, rfl⟩
      | right held front => exact .loop held (front.join took shallow) behind
  | negated shallow =>
    cases kept with
    | returned held took behind =>
      cases held with
      | origin => cases inside ⟨⟨_, _, rfl⟩, rfl⟩
      | negation room held =>
        exact .returned held (allowance_eq room ▸ took.not shallow) (behind_unary _)
  | closed =>
    cases kept with
    | returned held took behind =>
      cases held with
      | origin => cases inside ⟨⟨_, _, rfl⟩, rfl⟩
      | parenthesis room held =>
        exact .returned held (allowance_eq room ▸ took.enclosed) (behind_unary _)
  | accepted => exact .accepted
  | ended ended => exact kept
  | fails other failed nesting =>
    obtain ⟨pieces, nesting, stack, control⟩ := later
    cases failed
    exact .failed
  | full nests begins full => exact .failed
  | deepNot deep => exact .failed
  | deepJoin deep => exact .failed
  | underflow entered =>
    cases kept with
    | returned held took behind =>
      rcases entered with rfl | rfl
      · cases held with
        | origin => cases inside ⟨⟨_, _, rfl⟩, rfl⟩
      · cases held with
        | origin => cases inside ⟨⟨_, _, rfl⟩, rfl⟩

theorem Stepped.nesting_le {state later : Descent} (stepped : Stepped limit state later)
    (within : state.nesting ≤ limit) : later.nesting ≤ limit := by
  cases stepped with
  | negation room => exact room
  | parenthesis room => exact room
  | negated _ => exact Nat.le_of_succ_le within
  | closed => exact Nat.le_of_succ_le within
  | deepNot _ => exact Nat.le_of_succ_le within
  | fails _ _ fewer => exact Nat.le_trans fewer within
  | _ => exact within

/-- **What is found too deep exceeds the limit.** -/
theorem exceeds_of_stepped {state later : Descent} {place : Nat}
    (stepped : Stepped limit state later) (kept : Kept limit ⟨.whole, all, 0, []⟩ state)
    (running : ¬ Ended state.control) (failed : later.control = .failed ⟨.tooDeep, place⟩) :
    Exceeds limit all place := by
  cases stepped with
  | ended ended => exact absurd ended running
  | fails other same nesting =>
    cases same.symm.trans failed
    exact absurd rfl other
  | @full start spelling token rest nesting stack control nests begins full =>
    cases failed
    have held : Held limit ⟨.whole, all, 0, []⟩
        ⟨.unary, ⟨place, spelling, .token token⟩ :: rest, nesting, stack⟩ := by
      cases begins with
      | unary => cases kept with | call held => exact held
      | atom => cases kept with | atom held => exact held
    obtain ⟨before, tokens, placed⟩ := held.placed
    refine .nested placed.split nests placed.carried ?_
    -- As many as the limit allows can be entered, so that here there are no more than that.
    rw [placed.around, ← placed.counted]
    exact Nat.le_antisymm placed.within full
  | deepNot deep =>
    cases failed
    cases kept with
    | returned held took behind =>
      cases held with
      | negation room held =>
        obtain ⟨before, _, placed⟩ := held.placed
        obtain ⟨used, tokens, whole, carried, derived, same, shallow⟩ := took
        simp only at whole derived same shallow
        subst whole
        exact .negated placed.split carried (derived.mono (Nat.sub_le ..))
          (same.symm.trans (Nat.le_antisymm shallow deep))
  | deepJoin deep =>
    cases failed
    cases kept with
    | returned held took behind =>
      cases held with
      | right held front =>
        obtain ⟨before, _, placed⟩ := held.placed
        obtain ⟨left, first, wholeLeft, carriedLeft, derivedLeft, sameLeft, shallowLeft⟩ := front
        obtain ⟨right, second, wholeRight, carriedRight, derivedRight, same, shallow⟩ := took
        simp only at wholeLeft derivedLeft sameLeft shallowLeft
        simp only at wholeRight derivedRight same shallow
        subst wholeRight
        subst wholeLeft
        refine .joined placed.split placed.carried (placed.parts _ rfl) carriedLeft
          (derivedLeft.mono (Nat.sub_le ..)) carriedRight (derivedRight.mono (Nat.sub_le ..))
          behind ?_
        rw [← sameLeft, ← same]
        exact Nat.le_antisymm (Nat.max_le.mpr ⟨shallowLeft, shallow⟩) deep
  | _ => cases failed

/-! ### Readings -/

/-- The nesting is the number of the negations and parentheses around the place that was reached.
Where an operand has just been read, the negations in front of it still count; they end with it, but
were not left yet. -/
def Exact (all : List Lexeme) (state : Descent) : Prop :=
  ∃ before tokens, all = before ++ state.pieces ∧ Carries before tokens ∧
    state.nesting = (openers state.stack).length ∧
    enclosing tokens =
      match state.control with
      | .returned _ _ => endOperand (openers state.stack)
      | _ => openers state.stack

theorem Held.before_took {entry : List Lexeme} {level : Level} {nesting : Nat}
    {stack : List Pending} {found : Parsed}
    (held : Held limit ⟨.whole, all, 0, []⟩ ⟨level, entry, nesting, stack⟩)
    (took : Took limit (limit - nesting) level entry found) :
    ∃ before tokens, all = before ++ found.rest ∧ Carries before tokens ∧
      enclosing tokens = endOperand (openers stack) := by
  obtain ⟨before, tokens, placed⟩ := held.placed
  obtain ⟨used, operand, whole, carried, opened⟩ := took.opened
  refine ⟨before ++ used, tokens ++ operand, ?_, placed.carried.append carried, ?_⟩
  · rw [placed.split, List.append_assoc]
    exact congrArg (before ++ ·) whole
  · rw [enclosing, List.foldl_append, opened]
    exact congrArg endOperand placed.around

theorem Kept.exact {state : Descent} (kept : Kept limit ⟨.whole, all, 0, []⟩ state)
    (running : ¬ Ended state.control) : Exact all state := by
  cases kept with
  | call held =>
    obtain ⟨before, tokens, placed⟩ := held.placed
    exact ⟨before, tokens, placed.split, placed.carried, placed.counted, placed.around⟩
  | atom held =>
    obtain ⟨before, tokens, placed⟩ := held.placed
    exact ⟨before, tokens, placed.split, placed.carried, placed.counted, placed.around⟩
  | loop held took behind =>
    obtain ⟨_, _, placed⟩ := held.placed
    obtain ⟨before, tokens, split, carried, around⟩ := held.before_took took
    exact ⟨before, tokens, split, carried, placed.counted, around.trans (placed.unnegated _ rfl)⟩
  | returned held took behind =>
    obtain ⟨_, _, placed⟩ := held.placed
    obtain ⟨before, tokens, split, carried, around⟩ := held.before_took took
    exact ⟨before, tokens, split, carried, placed.counted, around⟩
  | accepted => exact absurd (.accepted _) running
  | failed => exact absurd (.failed _) running

theorem Kept.ne_crashed {state : Descent} (kept : Kept limit origin state) :
    state.control ≠ .crashed := by
  cases kept <;> exact Control.noConfusion

theorem kept_iterate (limit finish : Nat) (all : List Lexeme) (turns : Nat) :
    Kept limit ⟨.whole, all, 0, []⟩ ((step limit finish)^[turns] (start all)) := by
  induction turns with
  | zero => exact .call .origin
  | succ turns ih =>
    rw [Function.iterate_succ_apply']
    exact ih.step (fun returned => returned.2) finish

theorem nesting_iterate_le {first : Descent} (within : first.nesting ≤ limit) (finish turns : Nat) :
    ((step limit finish)^[turns] first).nesting ≤ limit := by
  induction turns with
  | zero => exact within
  | succ turns ih =>
    rw [Function.iterate_succ_apply']
    exact (stepped _).nesting_le ih

theorem step_of_ended {state : Descent} (ended : Ended state.control) (finish : Nat) :
    state.step limit finish = state := by
  obtain ⟨pieces, nesting, stack, control⟩ := state
  cases ended <;> rfl

theorem exceeds_of_iterate {limit finish turns place : Nat} {all : List Lexeme}
    (failed : ((step limit finish)^[turns] (start all)).control = .failed ⟨.tooDeep, place⟩) :
    Exceeds limit all place := by
  induction turns with
  | zero => cases failed
  | succ turns ih =>
    rw [Function.iterate_succ_apply'] at failed
    by_cases ended : Ended ((step limit finish)^[turns] (start all)).control
    · rw [step_of_ended ended] at failed
      exact ih failed
    · exact exceeds_of_stepped (stepped _) (kept_iterate limit finish all turns) ended failed

/-! ### Calls -/

/-- The states during a call, up to the one in which it gives its tree back. -/
inductive During (limit finish : Nat) (called : Descent) : Descent → Prop
  | called : During limit finish called called
  | turn {state : Descent} (during : During limit finish called state)
      (inside : ¬ Returned called.stack state) :
      During limit finish called (state.step limit finish)

theorem Held.length_le {call : Call} (held : Held limit origin call) :
    origin.stack.length ≤ call.stack.length := by
  induction held with
  | origin => exact Nat.le_refl _
  | first _ ih => exact Nat.le_succ_of_le ih
  | right _ _ ih => exact Nat.le_succ_of_le ih
  | negation _ _ ih => exact Nat.le_succ_of_le ih
  | parenthesis _ _ ih => exact Nat.le_succ_of_le ih

theorem Held.cons_ne {level : Level} {pieces : List Lexeme} {nesting : Nat} {stack : List Pending}
    (held : Held limit origin ⟨level, pieces, nesting, stack⟩) (pending : Pending) :
    pending :: stack ≠ origin.stack := by
  intro same
  have longer : origin.stack.length ≤ stack.length := held.length_le
  rw [← same] at longer
  exact Nat.not_succ_le_self _ longer

/-- With nothing more waiting, it is the call itself. -/
theorem Held.eq_origin {call : Call} (held : Held limit origin call)
    (same : call.stack = origin.stack) : call = origin := by
  cases held with
  | origin => rfl
  | first held => exact absurd same (held.cons_ne _)
  | right held _ => exact absurd same (held.cons_ne _)
  | negation _ held => exact absurd same (held.cons_ne _)
  | parenthesis _ held => exact absurd same (held.cons_ne _)

theorem During.kept {finish : Nat} {called state : Descent}
    (during : During limit finish called state) (kept : Kept limit origin called)
    (same : called.stack = origin.stack) : Kept limit origin state := by
  induction during with
  | called => exact kept
  | turn _ inside ih => exact ih.step (fun returned => absurd (same ▸ returned) inside) finish

/-- A call of one of the functions that read. -/
inductive Calls : Control → Level → Prop
  | level (level : Level) : Calls (.call level) level
  | atom : Calls .atom .unary

/-- **A call that gives its tree back** gives its depth, which keeps the limit, has left what it has
entered, and has taken tokens, at least one, that stand for the tree. -/
theorem During.returned {finish : Nat} {called state : Descent} {level : Level}
    (during : During limit finish called state) (calls : Calls called.control level) {e : Expr}
    {depth : Nat} (returned : state.control = .returned e depth)
    (back : state.stack = called.stack) :
    depth = e.depth ∧ depth ≤ limit ∧ state.nesting = called.nesting ∧
      ∃ used tokens, called.pieces = used ++ state.pieces ∧ used ≠ [] ∧ Carries used tokens ∧
        Derives (limit - called.nesting) level tokens e := by
  have begins : Kept limit ⟨level, called.pieces, called.nesting, called.stack⟩ called := by
    obtain ⟨pieces, nesting, stack, control⟩ := called
    cases calls with
    | level level => exact .call .origin
    | atom => exact .atom .origin
  have kept := during.kept begins rfl
  obtain ⟨pieces, nesting, stack, control⟩ := state
  cases returned
  cases kept with
  | returned held took behind =>
    cases held.eq_origin back
    obtain ⟨used, tokens, whole, carried, derived, same, shallow⟩ := took
    refine ⟨same, shallow, rfl, used, tokens, whole, ?_, carried, derived⟩
    rintro rfl
    exact derived.ne_nil (carried.unique (carries_nil_iff.mpr rfl))

/-! ### Texts -/

/-- The reading of a text; a blank one is not begun. -/
def ofText (text : String) : Descent :=
  let normalized := Text.normalize text.toList
  if normalized = [] then (start []).fail ⟨.empty, 0⟩ else start (lexemes normalized)

/-- The state of the reading of a text after some turns. -/
def after (text : String) (turns : Nat) : Descent :=
  (step maxDepth (Text.byteLength (Text.normalize text.toList)))^[turns] (ofText text)

theorem after_of_inked {text : String} (inked : Text.normalize text.toList ≠ []) (turns : Nat) :
    after text turns = (step maxDepth (Text.byteLength (Text.normalize text.toList)))^[turns]
      (start (lexemes (Text.normalize text.toList))) := by
  unfold after ofText
  rw [if_neg inked]

theorem after_of_blank {text : String} (blank : Text.normalize text.toList = []) (turns : Nat) :
    after text turns = (start []).fail ⟨.empty, 0⟩ := by
  unfold after ofText
  rw [if_pos blank]
  exact Function.iterate_fixed (step_of_ended (.failed _) _) turns

theorem kept_after (text : String) (turns : Nat) :
    Kept maxDepth ⟨.whole, lexemes (Text.normalize text.toList), 0, []⟩ (after text turns) := by
  by_cases blank : Text.normalize text.toList = []
  · rw [after_of_blank blank]
    exact .failed
  · rw [after_of_inked blank]
    exact kept_iterate ..

theorem nesting_after_le (text : String) (turns : Nat) :
    (after text turns).nesting ≤ maxDepth := by
  have start : (ofText text).nesting ≤ maxDepth := by
    simp only [ofText]
    split <;> exact Nat.zero_le _
  exact nesting_iterate_le start _ turns

theorem exists_outcome_after (text : String) :
    ∃ turns, (after text turns).outcome? = some (parse text) := by
  by_cases blank : Text.normalize text.toList = []
  · refine ⟨0, ?_⟩
    rw [after_of_blank blank, parse, parseNormalized, if_pos blank]
    rfl
  · obtain ⟨turns, outcome⟩ := exists_outcome maxDepth
      (Text.byteLength (Text.normalize text.toList)) (lexemes (Text.normalize text.toList))
    refine ⟨turns, ?_⟩
    rw [after_of_inked blank, outcome, parse_of_normalize_ne_nil blank]

/-- **Every state of every reading.** The counter is the number of the negations and parentheses around
the place that was reached, keeps the limit, and nothing is left that was not entered. A call of any of
the functions that read, if it gives a tree back, gives its depth, which keeps the limit; the counter is
then what it was, and at least one token was taken and what follows was not touched. Every reading
comes to its end, with the answer for its text; and where that is that something is too deep, a token
at that place is. -/
theorem nesting_spec (text : String) :
    (∀ turns, (after text turns).control ≠ .crashed ∧ (after text turns).nesting ≤ maxDepth ∧
      (¬ Ended (after text turns).control →
        Exact (lexemes (Text.normalize text.toList)) (after text turns)) ∧
      ∀ level, Calls (after text turns).control level → ∀ later e depth,
        During maxDepth (Text.byteLength (Text.normalize text.toList)) (after text turns) later →
        later.control = .returned e depth → later.stack = (after text turns).stack →
        depth = e.depth ∧ depth ≤ maxDepth ∧ later.nesting = (after text turns).nesting ∧
          ∃ used tokens, (after text turns).pieces = used ++ later.pieces ∧ used ≠ [] ∧
            Carries used tokens ∧
            Derives (maxDepth - (after text turns).nesting) level tokens e) ∧
    (∃ turns, (after text turns).outcome? = some (parse text)) ∧
    ∀ place, parse text = .error ⟨.tooDeep, place⟩ →
      Exceeds maxDepth (lexemes (Text.normalize text.toList)) place := by
  refine ⟨fun turns => ?_, exists_outcome_after text, fun place failed => ?_⟩
  · have kept := kept_after text turns
    refine ⟨kept.ne_crashed, nesting_after_le text turns, kept.exact, ?_⟩
    intro level calls later e depth during returned back
    exact during.returned calls returned back
  · obtain ⟨turns, outcome⟩ := exists_outcome_after text
    by_cases blank : Text.normalize text.toList = []
    · rw [parse, parseNormalized, if_pos blank] at failed
      cases failed
    · rw [failed, after_of_inked blank] at outcome
      exact exceeds_of_iterate (failed_of_outcome outcome)

end Descent

end Switching
