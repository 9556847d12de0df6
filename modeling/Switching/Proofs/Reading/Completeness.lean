/-
**What is written is read.**

Lexemes that carry an expression of the grammar are read as its tree, or else one of the two limits
is exceeded; no other error can come up before they are read. Because the grammar is left recursive
and the reader of a connective is a loop, the statement is about what the reader does next: after
the tokens of a level, its reader is where it would be with the tree in hand.

* `Arrives`: the reader comes to a result, or finds a limit exceeded;
* `Derives.arrives`: what is written at a level brings the reader of the level behind it;
* `Derives.unique`: tokens stand for at most one tree at a level.
-/

import Switching.Proofs.Reading.Readers

namespace Switching

namespace Parser

/-- The reader comes to the expected result, or the limits do not hold and it finds that. -/
def Arrives (within : Prop) (expected result : Except ParseError Parsed) : Prop :=
  result = expected ∨ ¬ within ∧ ∃ place, result = .error ⟨.tooDeep, place⟩

namespace Arrives

variable {within : Prop} {expected result : Except ParseError Parsed}

theorem eq_of_within (arrives : Arrives within expected result) (holds : within) :
    result = expected := by
  rcases arrives with same | ⟨exceeded, _⟩
  · exact same
  · exact absurd holds exceeded

theorem tooDeep (exceeded : ¬ within) (place : Nat) :
    Arrives within expected (.error ⟨.tooDeep, place⟩) :=
  .inr ⟨exceeded, place, rfl⟩

end Arrives

/-! ### One step of each kind -/

/-- A negation in front of what is read. -/
theorem arrives_not {limit finish allowance nesting : Nat} (start : Nat) (spelling : List Char)
    {pieces rest : List Lexeme} {e : Expr}
    (operand : Arrives (nesting ≤ allowance ∧ e.depth ≤ limit) (.ok ⟨e, e.depth, rest⟩)
      (unary limit finish allowance pieces)) :
    Arrives (nesting + 1 ≤ allowance + 1 ∧ (Expr.not e).depth ≤ limit)
      (.ok ⟨.not e, (Expr.not e).depth, rest⟩)
      (unary limit finish (allowance + 1) (⟨start, spelling, .token .not⟩ :: pieces)) := by
  rw [unary_not]
  rcases operand with read | ⟨exceeded, place, failed⟩
  · rw [read]
    by_cases shallow : e.depth < limit
    · left
      exact if_pos shallow
    · right
      exact ⟨fun within => shallow within.2, start, if_neg shallow⟩
  · rw [failed]
    refine .tooDeep (fun within => exceeded ⟨Nat.le_of_succ_le_succ within.1, ?_⟩) place
    exact Nat.le_of_succ_le within.2

/-- Parentheses around what is read. -/
theorem arrives_enclosed {limit finish allowance nesting place : Nat} {last : List Char}
    (start : Nat) (spelling : List Char) {pieces rest : List Lexeme} {e : Expr}
    (inner : Arrives (nesting ≤ allowance ∧ e.depth ≤ limit)
      (.ok ⟨e, e.depth, ⟨place, last, .token .closing⟩ :: rest⟩)
      (readerAt limit (unary limit finish allowance) .whole pieces)) :
    Arrives (nesting + 1 ≤ allowance + 1 ∧ e.depth ≤ limit) (.ok ⟨e, e.depth, rest⟩)
      (unary limit finish (allowance + 1) (⟨start, spelling, .token .opening⟩ :: pieces)) := by
  rw [unary_opening]
  rcases inner with read | ⟨exceeded, deep, failed⟩
  · rw [read]
    left
    rfl
  · rw [failed]
    refine .tooDeep (fun within => exceeded ⟨?_, within.2⟩) deep
    exact Nat.le_of_succ_le_succ within.1

/-- A chain in front of its connective, when one more operand is read behind it. -/
theorem arrives_join {limit nesting allowance start : Nat} {spelling : List Char}
    {op : Connective} {operand : Reader} {result : Except ParseError Parsed}
    {pieces rest : List Lexeme} {l r : Expr}
    (left : Arrives (nesting ≤ allowance ∧ l.depth ≤ limit)
      (chainFrom limit op operand l l.depth (⟨start, spelling, .token (.op op)⟩ :: pieces)) result)
    (right : Arrives (nesting ≤ allowance ∧ r.depth ≤ limit) (.ok ⟨r, r.depth, rest⟩)
      (operand pieces)) :
    Arrives (nesting ≤ allowance ∧ (Expr.binary op l r).depth ≤ limit)
      (chainFrom limit op operand (.binary op l r) (Expr.binary op l r).depth rest) result := by
  have shallow : (Expr.binary op l r).depth ≤ limit → l.depth ≤ limit ∧ r.depth ≤ limit := by
    intro within
    simp only [Expr.depth] at within
    omega
  rcases left with same | ⟨exceeded, place, failed⟩
  · rw [same, chainFrom_op]
    rcases right with read | ⟨exceeded, place, failed⟩
    · rw [read]
      by_cases room : max l.depth r.depth < limit
      · left
        exact if_pos room
      · right
        exact ⟨fun within => room within.2, start, if_neg room⟩
    · rw [failed]
      exact .tooDeep (fun within => exceeded ⟨within.1, (shallow within.2).2⟩) place
  · rw [failed]
    exact .tooDeep (fun within => exceeded ⟨within.1, (shallow within.2).1⟩) place

end Parser

open Switching.Parser

/-! ### A whole derivation -/

/-- **What is written at a level is read by its reader**, up to the limits: the reader goes on with
what is behind the tokens as if it had their tree in hand. The induction is on the derivation; the
allowance varies because negations and parentheses use it up. -/
theorem Derives.arrives {nesting : Nat} {level : Level} {tokens : List Token} {e : Expr}
    (derived : Derives nesting level tokens e) (limit finish : Nat) :
    ∀ (allowance : Nat) {pieces rest : List Lexeme}, Carries pieces tokens →
      Stops level.inside rest →
      Arrives (nesting ≤ allowance ∧ e.depth ≤ limit)
        (resume limit (unary limit finish allowance) level e rest)
        (readerAt limit (unary limit finish allowance) level (pieces ++ rest)) := by
  induction derived with
  | var nesting v =>
    intro allowance pieces rest carried _
    obtain ⟨start, spelling, others, rfl, nothing⟩ := carries_cons_iff.mp carried
    rw [carries_nil_iff.mp nothing]
    left
    exact unary_var limit finish allowance start spelling rest v
  | const nesting value =>
    intro allowance pieces rest carried _
    obtain ⟨start, spelling, others, rfl, nothing⟩ := carries_cons_iff.mp carried
    rw [carries_nil_iff.mp nothing]
    left
    exact unary_const limit finish allowance start spelling rest value
  | @not nesting tokens e _ ih =>
    intro allowance pieces rest carried stops
    obtain ⟨start, spelling, operand, rfl, carriedOperand⟩ := carries_cons_iff.mp carried
    cases allowance with
    | zero =>
      have refused := unary_zero limit finish start spelling (operand ++ rest) (.inl rfl)
      show Arrives _ _ (unary limit finish 0 (_ :: (operand ++ rest)))
      rw [refused]
      exact .tooDeep (fun within => Nat.not_succ_le_zero _ within.1) start
    | succ allowance => exact arrives_not start spelling (ih allowance carriedOperand stops)
  | @enclosed nesting tokens e _ ih =>
    intro allowance pieces rest carried _
    obtain ⟨start, spelling, others, rfl, carriedOthers⟩ := carries_cons_iff.mp carried
    obtain ⟨inner, behind, rfl, carriedInner, closing⟩ := carries_append_iff.mp carriedOthers
    obtain ⟨place, last, nothing, rfl, none⟩ := carries_cons_iff.mp closing
    rw [carries_nil_iff.mp none, List.cons_append, List.append_assoc]
    cases allowance with
    | zero =>
      have refused := unary_zero limit finish start spelling
        (inner ++ ([⟨place, last, .token .closing⟩] ++ rest)) (.inr rfl)
      show Arrives _ _ (unary limit finish 0 _)
      rw [refused]
      exact .tooDeep (fun within => Nat.not_succ_le_zero _ within.1) start
    | succ allowance =>
      have stops (level : Level) := stops_closing level place last rest
      have read := ih allowance carriedInner (stops _)
      rw [resume_stop (stops _)] at read
      exact arrives_enclosed start spelling read
  | @single nesting op tokens e _ ih =>
    intro allowance pieces rest carried stops
    replace stops : Stops (.operand op) rest := stops
    have operand := ih allowance carried (stops.mono (Level.strength_le_inside _))
    rw [resume_stop stops] at operand
    rw [readerAt_joined]
    rcases operand with read | ⟨exceeded, place, failed⟩
    · left
      exact chain_of_ok read
    · right
      exact ⟨exceeded, place, chain_of_error failed⟩
  | @join nesting op before after l r _ _ left right =>
    intro allowance pieces rest carried stops
    replace stops : Stops (.operand op) rest := stops
    obtain ⟨first, behind, rfl, carriedFirst, carriedBehind⟩ := carries_append_iff.mp carried
    obtain ⟨start, spelling, second, rfl, carriedSecond⟩ := carries_cons_iff.mp carriedBehind
    have operand := right allowance carriedSecond (stops.mono (Level.strength_le_inside _))
    rw [resume_stop stops] at operand
    have chain := left allowance carriedFirst (stops_op op start spelling (second ++ rest))
    rw [List.append_assoc, List.cons_append]
    exact arrives_join chain operand

/-- What is written at a level is found by its reader, up to the limits, where the level stops. -/
theorem Derives.arrives_stop {nesting : Nat} {level : Level} {tokens : List Token} {e : Expr}
    (derived : Derives nesting level tokens e) (limit finish allowance : Nat)
    {pieces rest : List Lexeme} (carried : Carries pieces tokens) (stops : Stops level rest) :
    Arrives (nesting ≤ allowance ∧ e.depth ≤ limit) (.ok ⟨e, e.depth, rest⟩)
      (readerAt limit (unary limit finish allowance) level (pieces ++ rest)) := by
  have arrives := derived.arrives limit finish allowance carried
    (stops.mono level.strength_le_inside)
  rwa [resume_stop stops] at arrives

/-- **Tokens stand for at most one tree at a level**: with limits that both derivations keep, the
reader of the level finds the trees of both. -/
theorem Derives.unique {nesting other : Nat} {level : Level} {tokens : List Token}
    {first second : Expr} (one : Derives nesting level tokens first)
    (two : Derives other level tokens second) : first = second := by
  have carried : Carries (tokens.map fun token => ⟨0, [], .token token⟩) tokens := by
    simp [Carries, Function.comp_def]
  have left := (one.arrives_stop (max first.depth second.depth) 0 (max nesting other) carried
    (stops_nil level)).eq_of_within ⟨Nat.le_max_left _ _, Nat.le_max_left _ _⟩
  have right := (two.arrives_stop (max first.depth second.depth) 0 (max nesting other) carried
    (stops_nil level)).eq_of_within ⟨Nat.le_max_right _ _, Nat.le_max_right _ _⟩
  rw [left] at right
  cases right
  rfl

end Switching
