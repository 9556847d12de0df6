/-
**Why reading fails.**

A reader that fails has read tokens that meet the expectations up to the place that it blames, and
there it stands before what cannot come next, or before the end. This is said of the lexemes of the
reader alone, for any number of parentheses that are open around it; what was read in front of it
leads to the expectation that it starts with, so that the same holds of all lexemes together.

* `Leads`: tokens that meet the expectations, between two places;
* `Blamed`: what an error of reading blames;
* `Blamed.behind`: what is blamed is blamed still with more tokens in front;
* `readerAt_unjoined`: behind what a whole expression has read stands no connective;
* `chainFrom_blamed`, `unary_explains`: what is blamed by a chain and by the innermost reader;
* `whole_blamed`: so every error of reading blames something.
-/

import Switching.Proofs.Reading.Soundness
import Switching.Proofs.Reading.Words

namespace Switching

/-! ### Expectations along lexemes -/

/-- The lexemes in front of the rest carry tokens that lead from one expectation to the other. -/
def Leads (expected : Expectation) (pieces : List Lexeme) (next : Expectation)
    (rest : List Lexeme) : Prop :=
  ∃ before tokens, pieces = before ++ rest ∧ Carries before tokens ∧
    expected.run tokens = some next

namespace Leads

variable {expected between next : Expectation} {pieces middle rest : List Lexeme}

theorem refl (expected : Expectation) (pieces : List Lexeme) :
    Leads expected pieces expected pieces :=
  ⟨[], [], rfl, carries_nil_iff.mpr rfl, rfl⟩

theorem trans (first : Leads expected pieces between middle)
    (second : Leads between middle next rest) : Leads expected pieces next rest := by
  obtain ⟨before, tokens, rfl, carried, taken⟩ := first
  obtain ⟨after, others, rfl, carriedOthers, takenOthers⟩ := second
  refine ⟨before ++ after, tokens ++ others, (List.append_assoc ..).symm,
    carried.append carriedOthers, ?_⟩
  rw [Expectation.run_append, taken]
  exact takenOthers

theorem step {token : Token} (taken : expected.step token = some next) (start : Nat)
    (spelling : List Char) (rest : List Lexeme) :
    Leads expected (⟨start, spelling, .token token⟩ :: rest) next rest := by
  refine ⟨[_], [token], rfl, carries_singleton start spelling token, ?_⟩
  rw [Expectation.run_cons, taken]
  rfl

end Leads

namespace Expectation

theorem step_true_op (opened : Nat) (op : Connective) : step ⟨true, opened⟩ (.op op) = none := by
  cases opened <;> rfl

theorem step_true_closing (opened : Nat) : step ⟨true, opened⟩ .closing = none := by
  cases opened <;> rfl

/-- Behind an operand nothing can come but a connective and a closing parenthesis. -/
theorem step_false_eq_none {opened : Nat} {token : Token}
    (other : ∀ op, token ≠ .op op) (unclosing : token ≠ .closing) :
    step ⟨false, opened⟩ token = none := by
  rw [Option.eq_none_iff_forall_ne_some]
  intro next taken
  rcases step_false taken with ⟨op, same⟩ | same
  · exact other op same
  · exact unclosing same

end Expectation

namespace Parser

/-- What a reader of a level took leads from an operand to its end. -/
theorem Took.leads {limit allowance : Nat} {level : Level} {pieces : List Lexeme} {found : Parsed}
    (took : Took limit allowance level pieces found) (opened : Nat) :
    Leads ⟨true, opened⟩ pieces ⟨false, opened⟩ found.rest := by
  obtain ⟨used, tokens, whole, carried, derived, _⟩ := took
  exact ⟨used, tokens, whole, carried, derived.run opened⟩

/-! ### What is blamed -/

/-- What an error of reading blames, in lexemes that end at byte `finish` and are read under an
expectation. -/
inductive Blamed (finish : Nat) (expected : Expectation) (pieces : List Lexeme) : ParseError → Prop
  /-- An unknown character, the first one. -/
  | unexpectedChar {next : Expectation} {place : Nat} {spelling : List Char} {c : Char}
      {after : List Lexeme}
      (leads : Leads expected pieces next (⟨place, spelling, .unknown c⟩ :: after)) :
      Blamed finish expected pieces ⟨.unexpectedChar c, place⟩
  /-- A token that may not come next; a parenthesis is not closed without an operand. -/
  | unexpectedToken {next : Expectation} {place : Nat} {spelling : List Char} {token : Token}
      {after : List Lexeme}
      (leads : Leads expected pieces next (⟨place, spelling, .token token⟩ :: after))
      (stuck : next.step token = none) (early : token = .closing → next.operand = true) :
      Blamed finish expected pieces ⟨.unexpectedToken token.text, place⟩
  /-- The end, where an operand has to come. -/
  | unexpectedEnd {opened : Nat} (leads : Leads expected pieces ⟨true, opened⟩ []) :
      Blamed finish expected pieces ⟨.unexpectedEnd, finish⟩
  /-- A parenthesis behind which only a whole expression stands. -/
  | unclosedParen {opened place : Nat} {spelling : List Char} {inner : List Lexeme}
      (leads : Leads expected pieces ⟨true, opened⟩ (⟨place, spelling, .token .opening⟩ :: inner))
      (ends : Leads ⟨true, 0⟩ inner ⟨false, 0⟩ []) :
      Blamed finish expected pieces ⟨.unclosedParen, place⟩
  /-- A parenthesis that is closed behind a whole sentence. -/
  | unmatchedParen {place : Nat} {spelling : List Char} {after : List Lexeme}
      (leads : Leads expected pieces ⟨false, 0⟩ (⟨place, spelling, .token .closing⟩ :: after)) :
      Blamed finish expected pieces ⟨.unmatchedParen, place⟩
  /-- The depth: this says nothing about the tokens. -/
  | tooDeep (place : Nat) : Blamed finish expected pieces ⟨.tooDeep, place⟩

/-- **What is blamed is blamed still** with more tokens in front. -/
theorem Blamed.behind {finish : Nat} {expected next : Expectation} {pieces rest : List Lexeme}
    {e : ParseError} (blamed : Blamed finish next rest e)
    (leads : Leads expected pieces next rest) : Blamed finish expected pieces e := by
  cases blamed with
  | unexpectedChar further => exact .unexpectedChar (leads.trans further)
  | unexpectedToken further stuck early => exact .unexpectedToken (leads.trans further) stuck early
  | unexpectedEnd further => exact .unexpectedEnd (leads.trans further)
  | unclosedParen further ends => exact .unclosedParen (leads.trans further) ends
  | unmatchedParen further => exact .unmatchedParen (leads.trans further)
  | tooDeep place => exact .tooDeep place

/-- Whenever a reader fails where an operand has to come, this is what it blames. -/
def Explains (finish : Nat) (reader : Reader) : Prop :=
  ∀ opened pieces e, reader pieces = .error e → Blamed finish ⟨true, opened⟩ pieces e

/-! ### What stands behind an operand -/

/-- No connective that binds as tightly as the level comes next. -/
def Behind (level : Level) (rest : List Lexeme) : Prop :=
  ∀ piece ∈ rest.head?, ∀ op, piece.reading = .token (.op op) → op.strength < level.strength

/-- A reader leaves no connective that binds as tightly as its level. -/
def Exhausts (level : Level) (reader : Reader) : Prop :=
  ∀ pieces found, reader pieces = .ok found → Behind level found.rest

theorem behind_unary (rest : List Lexeme) : Behind .unary rest := by
  intro piece _ op _
  cases op <;> decide

/-- Behind an operand that its own connective does not follow, none follows that binds as tightly. -/
theorem Behind.joined {op : Connective} {rest : List Lexeme} (behind : Behind (.operand op) rest)
    (differ : ∀ piece ∈ rest.head?, piece.reading ≠ .token (.op op)) : Behind (.joined op) rest := by
  intro piece first other same
  have weaker := behind piece first other same
  rw [Level.strength_operand] at weaker
  refine Nat.lt_of_le_of_ne (Nat.le_of_lt_succ weaker) fun equal => ?_
  obtain rfl := Connective.strength_injective equal
  exact differ piece first same

/-- A chain ends where its connective does not come next, nor one that its operands take. -/
theorem chainFrom_behind {limit : Nat} {op : Connective} {operand : Reader}
    (exhausts : Exhausts (.operand op) operand) {left : Expr} {depth : Nat} {rest : List Lexeme}
    {found : Parsed} (behind : Behind (.operand op) rest)
    (ends : chainFrom limit op operand left depth rest = .ok found) :
    Behind (.joined op) found.rest := by
  fun_induction chainFrom limit op operand left depth rest with
  | case1 => cases ends
  | case2 => cases ends
  | case3 left depth start spelling rest right read shallow ih =>
    exact ih (exhausts rest right read) ends
  | case4 => cases ends
  | case5 left depth start spelling token rest differ =>
    cases ends
    refine behind.joined fun piece first same => ?_
    cases first
    exact differ (Reading.token.inj same)
  | case6 =>
    cases ends
    refine behind.joined fun piece first => ?_
    cases first

theorem chain_exhausts (limit : Nat) (op : Connective) {operand : Reader}
    (exhausts : Exhausts (.operand op) operand) :
    Exhausts (.joined op) (chain limit op operand) := by
  intro pieces found ends
  cases read : operand pieces with
  | error e =>
    rw [chain_of_error read] at ends
    cases ends
  | ok first =>
    rw [chain_of_ok read] at ends
    exact chainFrom_behind exhausts (exhausts pieces first read) ends

/-- No connective comes next. -/
def Unjoined (rest : List Lexeme) : Prop :=
  ∀ piece ∈ rest.head?, ∀ op, piece.reading ≠ .token (.op op)

/-- **Behind what a whole expression has read stands no connective.** -/
theorem readerAt_unjoined {limit : Nat} {operand : Reader} {pieces : List Lexeme} {found : Parsed}
    (ends : readerAt limit operand .whole pieces = .ok found) : Unjoined found.rest := by
  have innermost : Exhausts .unary operand := fun _ found _ => behind_unary found.rest
  have exhausts : Exhausts .whole (readerAt limit operand .whole) :=
    readerAt_induction innermost (fun op _ => chain_exhausts limit op) .whole
  intro piece first op same
  have weaker := exhausts pieces found ends piece first op same
  cases op <;> exact absurd weaker (by decide)

/-- A token behind an operand is blamed that is no connective and closes no parenthesis. -/
theorem Blamed.of_ended {finish opened place : Nat} {expected : Expectation}
    {pieces others : List Lexeme} {last : List Char} {token : Token}
    (ended : Leads expected pieces ⟨false, opened⟩ (⟨place, last, .token token⟩ :: others))
    (unjoined : Unjoined (⟨place, last, .token token⟩ :: others)) (unclosing : token ≠ .closing) :
    Blamed finish expected pieces ⟨.unexpectedToken token.text, place⟩ := by
  have other : ∀ op, token ≠ .op op := fun op equal => unjoined _ rfl op (congrArg _ equal)
  exact .unexpectedToken ended (Expectation.step_false_eq_none other unclosing)
    fun closing => absurd closing unclosing

/-! ### Chains -/

section Chains

variable {limit finish allowance : Nat} {op : Connective} {operand : Reader}
  (takes : Takes limit allowance (.operand op) operand) (explains : Explains finish operand)

include takes explains

/-- **What a chain blames.** The invariant is that the lexemes in front of the current ones lead to
the end of an operand. -/
theorem chainFrom_blamed {opened : Nat} {pieces : List Lexeme} {left : Expr} {depth : Nat}
    {rest : List Lexeme} {e : ParseError}
    (before : Leads ⟨true, opened⟩ pieces ⟨false, opened⟩ rest)
    (failed : chainFrom limit op operand left depth rest = .error e) :
    Blamed finish ⟨true, opened⟩ pieces e := by
  fun_induction chainFrom limit op operand left depth rest with
  | case1 =>
    cases failed
    exact .unexpectedChar before
  | case2 left depth start spelling rest failure read =>
    cases failed
    exact (explains opened rest _ read).behind (before.trans (.step rfl start spelling rest))
  | case3 left depth start spelling rest right read shallow ih =>
    refine ih ?_ failed
    exact (before.trans (.step rfl start spelling rest)).trans ((takes rest right read).leads opened)
  | case4 left depth start =>
    cases failed
    exact .tooDeep start
  | case5 => cases failed
  | case6 => cases failed

theorem chain_explains : Explains finish (chain limit op operand) := by
  intro opened pieces e failed
  cases read : operand pieces with
  | error failure =>
    rw [chain_of_error read] at failed
    cases failed
    exact explains opened pieces _ read
  | ok first =>
    rw [chain_of_ok read] at failed
    exact chainFrom_blamed takes explains ((takes pieces first read).leads opened) failed

end Chains

/-- A whole expression explains its failures if the innermost reader explains its own. -/
theorem readerAt_explains {limit finish allowance : Nat} {operand : Reader}
    (takes : Takes limit allowance .unary operand) (explains : Explains finish operand) :
    Explains finish (readerAt limit operand .whole) := by
  have both := @readerAt_induction limit operand
    (fun level reader => Takes limit allowance level reader ∧ Explains finish reader)
    ⟨takes, explains⟩ (fun op _ known => ⟨chain_takes op known.1, chain_explains known.1 known.2⟩)
  exact (both .whole).2

/-! ### Negations, parentheses and leaves -/

/-- **What a parenthesis blames** that is not closed behind the whole expression in it. -/
theorem close_blamed {finish opened start : Nat} {spelling : List Char} {rest : List Lexeme}
    {inner : Parsed} {e : ParseError}
    (took : ∀ around, Leads ⟨true, around⟩ rest ⟨false, around⟩ inner.rest)
    (unjoined : Unjoined inner.rest) (failed : close start inner = .error e) :
    Blamed finish ⟨true, opened⟩ (⟨start, spelling, .token .opening⟩ :: rest) e := by
  have entered : Leads ⟨true, opened⟩ (⟨start, spelling, .token .opening⟩ :: rest)
      ⟨false, opened + 1⟩ inner.rest :=
    .trans (.step rfl start spelling rest) (took (opened + 1))
  unfold close at failed
  split at failed
  · cases failed
  · rename_i place last token others unclosing same
    cases failed
    rw [same] at entered unjoined
    exact .of_ended entered unjoined unclosing
  · rename_i place last c others same
    cases failed
    rw [same] at entered
    exact .unexpectedChar entered
  · rename_i nothing
    cases failed
    rw [nothing] at took
    exact .unclosedParen (.refl _ _) (took 0)

/-- **What the innermost reader blames**, if the readers inside a negation or a parenthesis explain
their failures. -/
theorem unary_blamed {limit finish allowance opened : Nat}
    (inside : ∀ less, allowance = less + 1 → Explains finish (unary limit finish less))
    {pieces : List Lexeme} {e : ParseError} (failed : unary limit finish allowance pieces = .error e) :
    Blamed finish ⟨true, opened⟩ pieces e := by
  match pieces with
  | [] =>
    rw [unary_nil] at failed
    cases failed
    exact .unexpectedEnd (.refl _ _)
  | ⟨start, spelling, .unknown c⟩ :: rest =>
    rw [unary_unknown] at failed
    cases failed
    exact .unexpectedChar (.refl _ _)
  | ⟨start, spelling, .token (.var v)⟩ :: rest =>
    rw [unary_var] at failed
    cases failed
  | ⟨start, spelling, .token (.const value)⟩ :: rest =>
    rw [unary_const] at failed
    cases failed
  | ⟨start, spelling, .token (.op op)⟩ :: rest =>
    rw [unary_op] at failed
    cases failed
    show Blamed finish _ _ ⟨.unexpectedToken (Token.op op).text, start⟩
    exact .unexpectedToken (.refl _ _) (Expectation.step_true_op opened op) fun _ => rfl
  | ⟨start, spelling, .token .closing⟩ :: rest =>
    rw [unary_closing] at failed
    cases failed
    exact .unexpectedToken (.refl _ _) (Expectation.step_true_closing opened) fun _ => rfl
  | ⟨start, spelling, .token .not⟩ :: rest =>
    cases allowance with
    | zero =>
      rw [unary_zero _ _ _ _ _ (.inl rfl)] at failed
      cases failed
      exact .tooDeep start
    | succ less =>
      rw [unary_not] at failed
      split at failed
      · rename_i failure read
        cases failed
        exact (inside less rfl opened rest _ read).behind (.step rfl start spelling rest)
      · split at failed
        · cases failed
        · cases failed
          exact .tooDeep start
  | ⟨start, spelling, .token .opening⟩ :: rest =>
    cases allowance with
    | zero =>
      rw [unary_zero _ _ _ _ _ (.inr rfl)] at failed
      cases failed
      exact .tooDeep start
    | succ less =>
      have takes := unary_takes limit finish less
      rw [unary_opening] at failed
      split at failed
      · rename_i failure read
        cases failed
        exact (readerAt_explains takes (inside less rfl) (opened + 1) rest _ read).behind
          (.step rfl start spelling rest)
      · rename_i inner read
        exact close_blamed (readerAt_takes takes .whole rest inner read).leads
          (readerAt_unjoined read) failed

/-- **The innermost reader explains its failures.** The induction is on the allowance, which is what
the readers inside a negation or a parenthesis have less of. -/
theorem unary_explains (limit finish allowance : Nat) :
    Explains finish (unary limit finish allowance) := by
  induction allowance with
  | zero => exact fun _ _ _ => unary_blamed fun less same => absurd same (Nat.succ_ne_zero less).symm
  | succ allowance ih =>
    refine fun _ _ _ => unary_blamed fun less same => ?_
    cases same
    exact ih

/-! ### All lexemes -/

/-- **Every error of reading blames something.** -/
theorem whole_blamed {limit finish : Nat} {pieces : List Lexeme} {e : ParseError}
    (failed : whole limit finish pieces = .error e) : Blamed finish ⟨true, 0⟩ pieces e := by
  have takes := unary_takes limit finish limit
  have explains := unary_explains limit finish limit
  unfold whole at failed
  split at failed
  · rename_i failure read
    cases failed
    exact readerAt_explains takes explains 0 pieces _ read
  · rename_i found read
    have ended := (readerAt_takes takes .whole pieces found read).leads 0
    have unjoined : Unjoined found.rest := readerAt_unjoined read
    unfold complete at failed
    split at failed
    · cases failed
    · rename_i place last others same
      cases failed
      rw [same] at ended
      exact .unmatchedParen ended
    · rename_i place last token others unclosing same
      cases failed
      rw [same] at ended unjoined
      exact .of_ended ended unjoined unclosing
    · rename_i place last c others same
      cases failed
      rw [same] at ended
      exact .unexpectedChar ended

end Parser

end Switching
