/-
**What is read is written.**

Whatever a reader finds stands at the start of its lexemes as the grammar says: the lexemes it took
carry tokens that derive its tree within the nesting it was allowed, the depth it carries along is
the depth of the tree, and no tree exceeds the limit.

* `Took`: what a reader of a level took;
* `Took.join`: one more operand, behind its connective;
* `chainFrom_took`, `readerAt_takes`: a level takes what stands for its tree if its operands do;
* `found_of_unary`: the ways in which the innermost reader finds a tree;
* `unary_takes`: it takes what stands for its tree, for every allowance.
-/

import Switching.Proofs.Reading.Readers

namespace Switching.Parser

/-- The lexemes up to the rest carry tokens that derive the tree at the level, within the allowed
nesting; the depth is that of the tree and within the limit. -/
def Took (limit allowance : Nat) (level : Level) (pieces : List Lexeme) (found : Parsed) : Prop :=
  ∃ used tokens, pieces = used ++ found.rest ∧ Carries used tokens ∧
    Derives allowance level tokens found.expr ∧ found.depth = found.expr.depth ∧
    found.depth ≤ limit

/-- A reader takes what stands for its tree. -/
def Takes (limit allowance : Nat) (level : Level) (reader : Reader) : Prop :=
  ∀ pieces found, reader pieces = .ok found → Took limit allowance level pieces found

namespace Took

variable {limit allowance : Nat}

theorem single {op : Connective} {pieces : List Lexeme} {found : Parsed}
    (operand : Took limit allowance (.operand op) pieces found) :
    Took limit allowance (.joined op) pieces found := by
  obtain ⟨used, tokens, whole, carried, derived, same, shallow⟩ := operand
  exact ⟨used, tokens, whole, carried, .single derived, same, shallow⟩

/-- **One more operand.** Behind the operands that were taken comes the connective, and behind it
another operand was taken. -/
theorem join {op : Connective} {pieces rest : List Lexeme} {left : Expr} {depth start : Nat}
    {spelling : List Char} {right : Parsed}
    (before : Took limit allowance (.joined op) pieces
      ⟨left, depth, ⟨start, spelling, .token (.op op)⟩ :: rest⟩)
    (after : Took limit allowance (.operand op) rest right)
    (shallow : max depth right.depth < limit) :
    Took limit allowance (.joined op) pieces
      ⟨.binary op left right.expr, max depth right.depth + 1, right.rest⟩ := by
  obtain ⟨used, tokens, whole, carried, derived, same, _⟩ := before
  obtain ⟨others, operand, behind, carriedOthers, derivedOthers, sameOthers, _⟩ := after
  simp only at whole derived same
  refine ⟨used ++ ⟨start, spelling, .token (.op op)⟩ :: others, tokens ++ .op op :: operand,
    ?_, ?_, .join derived derivedOthers, ?_, shallow⟩
  · rw [whole, behind, List.append_assoc, List.cons_append]
  · refine carried.append ?_
    exact carries_cons_iff.mpr ⟨start, spelling, others, rfl, carriedOthers⟩
  · show max depth right.depth + 1 = max left.depth right.expr.depth + 1
    rw [same, sameOthers]

theorem leaf {start : Nat} {spelling : List Char} {token : Token} {e : Expr}
    (derived : Derives allowance .unary [token] e) (shallow : e.depth = 0) (rest : List Lexeme) :
    Took limit allowance .unary (⟨start, spelling, .token token⟩ :: rest) ⟨e, 0, rest⟩ :=
  ⟨_, _, rfl, carries_singleton start spelling token, derived, shallow.symm, Nat.zero_le _⟩

theorem not {start : Nat} {spelling : List Char} {rest : List Lexeme} {inner : Parsed}
    (operand : Took limit allowance .unary rest inner) (shallow : inner.depth < limit) :
    Took limit (allowance + 1) .unary (⟨start, spelling, .token .not⟩ :: rest)
      ⟨.not inner.expr, inner.depth + 1, inner.rest⟩ := by
  obtain ⟨used, tokens, whole, carried, derived, same, _⟩ := operand
  refine ⟨⟨start, spelling, .token .not⟩ :: used, .not :: tokens, ?_, ?_, .not derived, ?_,
    shallow⟩
  · rw [whole, List.cons_append]
  · exact carries_cons_iff.mpr ⟨start, spelling, used, rfl, carried⟩
  · exact congrArg (· + 1) same

theorem enclosed {start place : Nat} {spelling last : List Char} {rest others : List Lexeme}
    {e : Expr} {depth : Nat}
    (inner : Took limit allowance .whole rest ⟨e, depth, ⟨place, last, .token .closing⟩ :: others⟩) :
    Took limit (allowance + 1) .unary (⟨start, spelling, .token .opening⟩ :: rest)
      ⟨e, depth, others⟩ := by
  obtain ⟨used, tokens, whole, carried, derived, same, shallow⟩ := inner
  simp only at whole derived same shallow
  refine ⟨⟨start, spelling, .token .opening⟩ :: (used ++ [⟨place, last, .token .closing⟩]),
    .opening :: (tokens ++ [.closing]), ?_, ?_, .enclosed derived, same, shallow⟩
  · rw [whole]
    simp
  · refine carries_cons_iff.mpr ⟨start, spelling, _, rfl, ?_⟩
    exact carried.append (carries_singleton place last .closing)

end Took

/-! ### Chains -/

/-- **A chain takes what its operands take.** The invariant is what was taken so far: the tree so
far stands for the lexemes in front of the current ones. -/
theorem chainFrom_took {limit allowance : Nat} {op : Connective} {operand : Reader}
    (takes : Takes limit allowance (.operand op) operand) {pieces : List Lexeme} {left : Expr}
    {depth : Nat} {rest : List Lexeme} {found : Parsed}
    (before : Took limit allowance (.joined op) pieces ⟨left, depth, rest⟩)
    (ends : chainFrom limit op operand left depth rest = .ok found) :
    Took limit allowance (.joined op) pieces found := by
  fun_induction chainFrom limit op operand left depth rest with
  | case1 => cases ends
  | case2 => cases ends
  | case3 left depth start spelling rest right read shallow ih =>
    exact ih (before.join (takes rest right read) shallow) ends
  | case4 => cases ends
  | case5 =>
    cases ends
    exact before
  | case6 =>
    cases ends
    exact before

theorem chain_takes {limit allowance : Nat} (op : Connective) {operand : Reader}
    (takes : Takes limit allowance (.operand op) operand) :
    Takes limit allowance (.joined op) (chain limit op operand) := by
  intro pieces found ends
  cases read : operand pieces with
  | error e =>
    rw [chain_of_error read] at ends
    cases ends
  | ok first =>
    rw [chain_of_ok read] at ends
    exact chainFrom_took takes (takes pieces first read).single ends

/-- Each level takes what stands for its tree if the innermost one does. -/
theorem readerAt_takes {limit allowance : Nat} {operand : Reader}
    (takes : Takes limit allowance .unary operand) (level : Level) :
    Takes limit allowance level (readerAt limit operand level) :=
  readerAt_induction takes (fun op _ => chain_takes op) level

/-! ### Negations, parentheses and leaves -/

/-- The ways in which the innermost reader finds a tree. -/
inductive Found (limit finish : Nat) : (allowance : Nat) → List Lexeme → Parsed → Prop
  | var (allowance start : Nat) (spelling : List Char) (v : Variable) (rest : List Lexeme) :
      Found limit finish allowance (⟨start, spelling, .token (.var v)⟩ :: rest) ⟨.var v, 0, rest⟩
  | const (allowance start : Nat) (spelling : List Char) (value : Bool) (rest : List Lexeme) :
      Found limit finish allowance (⟨start, spelling, .token (.const value)⟩ :: rest)
        ⟨.const value, 0, rest⟩
  | not {allowance start : Nat} {spelling : List Char} {rest : List Lexeme} {inner : Parsed}
      (read : unary limit finish allowance rest = .ok inner) (shallow : inner.depth < limit) :
      Found limit finish (allowance + 1) (⟨start, spelling, .token .not⟩ :: rest)
        ⟨.not inner.expr, inner.depth + 1, inner.rest⟩
  | enclosed {allowance start place : Nat} {spelling last : List Char} {rest others : List Lexeme}
      {e : Expr} {depth : Nat}
      (read : readerAt limit (unary limit finish allowance) .whole rest =
        .ok ⟨e, depth, ⟨place, last, .token .closing⟩ :: others⟩) :
      Found limit finish (allowance + 1) (⟨start, spelling, .token .opening⟩ :: rest)
        ⟨e, depth, others⟩

/-- A parenthesis is closed by a closing lexeme, and keeps the tree. -/
theorem close_eq_ok {start : Nat} {inner found : Parsed} (closed : close start inner = .ok found) :
    ∃ place last, inner =
      ⟨found.expr, found.depth, ⟨place, last, .token .closing⟩ :: found.rest⟩ := by
  obtain ⟨e, depth, rest⟩ := inner
  unfold close at closed
  split at closed
  · rename_i place last others same
    simp only at same
    cases closed
    exact ⟨place, last, by rw [same]⟩
  · cases closed
  · cases closed
  · cases closed

/-- **There are no other ways.** -/
theorem found_of_unary {limit finish allowance : Nat} {pieces : List Lexeme} {found : Parsed}
    (ends : unary limit finish allowance pieces = .ok found) :
    Found limit finish allowance pieces found := by
  match pieces with
  | [] =>
    rw [unary_nil] at ends
    cases ends
  | ⟨start, spelling, .unknown c⟩ :: rest =>
    rw [unary_unknown] at ends
    cases ends
  | ⟨start, spelling, .token (.var v)⟩ :: rest =>
    rw [unary_var] at ends
    cases ends
    exact .var allowance start spelling v rest
  | ⟨start, spelling, .token (.const value)⟩ :: rest =>
    rw [unary_const] at ends
    cases ends
    exact .const allowance start spelling value rest
  | ⟨start, spelling, .token (.op op)⟩ :: rest =>
    rw [unary_op] at ends
    cases ends
  | ⟨start, spelling, .token .closing⟩ :: rest =>
    rw [unary_closing] at ends
    cases ends
  | ⟨start, spelling, .token .not⟩ :: rest =>
    cases allowance with
    | zero =>
      rw [unary_zero _ _ _ _ _ (.inl rfl)] at ends
      cases ends
    | succ less =>
      rw [unary_not] at ends
      split at ends
      · cases ends
      · rename_i inner read
        split at ends
        · rename_i shallow
          cases ends
          exact .not read shallow
        · cases ends
  | ⟨start, spelling, .token .opening⟩ :: rest =>
    cases allowance with
    | zero =>
      rw [unary_zero _ _ _ _ _ (.inr rfl)] at ends
      cases ends
    | succ less =>
      rw [unary_opening] at ends
      split at ends
      · cases ends
      · rename_i inner read
        obtain ⟨place, last, rfl⟩ := close_eq_ok ends
        exact .enclosed read

/-- **The innermost reader takes what stands for its tree.** The induction is on the allowance,
which is what the readers inside a negation or a parenthesis have less of. -/
theorem unary_takes (limit finish allowance : Nat) :
    Takes limit allowance .unary (unary limit finish allowance) := by
  induction allowance with
  | zero =>
    intro pieces found ends
    cases found_of_unary ends with
    | var _ start spelling v rest => exact .leaf (.var _ v) rfl rest
    | const _ start spelling value rest => exact .leaf (.const _ value) rfl rest
  | succ allowance ih =>
    intro pieces found ends
    cases found_of_unary ends with
    | var _ start spelling v rest => exact .leaf (.var _ v) rfl rest
    | const _ start spelling value rest => exact .leaf (.const _ value) rfl rest
    | not read shallow => exact .not (ih _ _ read) shallow
    | enclosed read => exact .enclosed (readerAt_takes ih .whole _ _ read)

end Switching.Parser
