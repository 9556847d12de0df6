/-
**Beginnings of sentences.**

A list of tokens is viable if something behind it makes it a sentence. The grammar says so through
derivations; an `Expectation` goes through the list token by token and knows nothing of trees. Both
come to the same: wherever the expectations are met, what is still open can be completed, by an
operand where one is due and by a parenthesis for each open one. A connective may join one more
operand to any sentence, whose tree is then regrouped if the connective binds tightly.

* `Derives.join_operand`: a connective and an operand behind what is written at a looser level;
* `Ended`, `Awaits`: what an expectation says about the tokens in front of it;
* `Expectation.Stands.step`, `Expectation.Stands.run`: one token, and several, keep this;
* `sentence_iff_run`: the sentences are the lists that lead from an operand to its end;
* `viable_iff_run`: the viable lists are those that meet the expectations.
-/

import Switching.Proofs.Reading.Words

namespace Switching

/-! ### One more operand -/

/-- A level that is looser than a connective and not its own has operands that are looser still. -/
theorem Level.operand_looser {other op : Connective}
    (looser : (joined other).strength ≤ op.strength) (differ : other ≠ op) :
    (operand other).strength ≤ op.strength := by
  rw [strength_operand]
  exact Nat.lt_of_le_of_ne looser fun equal => differ (Connective.strength_injective equal)

/-- **A connective and an operand behind what is written at a looser level.** The induction is on
the derivation: the connective is passed down to the last operand until it stands at its own
level. -/
theorem Derives.join_operand {nesting : Nat} {level : Level} {before after : List Token}
    {l r : Expr} (left : Derives nesting level before l) {op : Connective}
    (looser : level.strength ≤ op.strength) (right : Derives nesting .unary after r) :
    ∃ e, Derives nesting level (before ++ .op op :: after) e := by
  have tight (op : Connective) : ¬ Level.unary.strength ≤ op.strength := by cases op <;> decide
  induction left with
  | var _ _ => exact absurd looser (tight op)
  | const _ _ => exact absurd looser (tight op)
  | not _ _ => exact absurd looser (tight op)
  | enclosed _ _ => exact absurd looser (tight op)
  | @single nesting other tokens e operand ih =>
    by_cases same : other = op
    · subst same
      exact ⟨_, .join (.single operand) (right.lift (Level.strength_le_negation _))⟩
    · obtain ⟨e, joined⟩ := ih (Level.operand_looser looser same) right
      exact ⟨e, .single joined⟩
  | @join nesting other tokens others l m first second _ ih =>
    by_cases same : other = op
    · subst same
      exact ⟨_, .join (.join first second) (right.lift (Level.strength_le_negation _))⟩
    · obtain ⟨e, joined⟩ := ih (Level.operand_looser looser same) right
      refine ⟨.binary other l e, ?_⟩
      rw [List.append_assoc, List.cons_append]
      exact .join first joined

theorem Sentence.join_operand {before after : List Token} {l r : Expr} (left : Sentence before l)
    (op : Connective) {nesting : Nat} (right : Derives nesting .unary after r) :
    ∃ e, Sentence (before ++ .op op :: after) e := by
  obtain ⟨other, derived⟩ := left
  have loosest : Level.whole.strength ≤ op.strength := by cases op <;> decide
  obtain ⟨e, joined⟩ := (derived.mono (Nat.le_max_left other nesting)).join_operand loosest
    (right.mono (Nat.le_max_right other nesting))
  exact ⟨e, _, joined⟩

theorem Derives.sentence {nesting : Nat} {level : Level} {tokens : List Token} {e : Expr}
    (derived : Derives nesting level tokens e) : Sentence tokens e :=
  ⟨nesting, derived.lift level.strength_whole_le⟩

/-! ### What an expectation says -/

/-- An operand has just ended inside this many parentheses: the tokens are a sentence, or what is
behind the last open parenthesis is one and, in the place of the parenthesis, an operand would have
ended inside one less. -/
def Ended : (opened : Nat) → List Token → Prop
  | 0, tokens => ∃ e, Sentence tokens e
  | opened + 1, tokens => ∃ outer inner e, tokens = outer ++ .opening :: inner ∧ Sentence inner e ∧
      ∀ nesting operand tree, Derives nesting .unary operand tree → Ended opened (outer ++ operand)

/-- An operand has to come next inside this many parentheses: whichever is put there ends there. -/
def Awaits (opened : Nat) (tokens : List Token) : Prop :=
  ∀ nesting operand tree, Derives nesting .unary operand tree → Ended opened (tokens ++ operand)

theorem awaits_nil : Awaits 0 [] := fun _ _ tree derived => ⟨tree, derived.sentence⟩

namespace Awaits

variable {opened : Nat} {tokens : List Token}

theorem not (awaits : Awaits opened tokens) : Awaits opened (tokens ++ [.not]) := by
  intro nesting operand tree derived
  rw [List.append_assoc]
  exact awaits _ _ _ (.not derived)

/-- Behind an opening parenthesis the operand may be a whole sentence. -/
theorem opening (awaits : Awaits opened tokens) : Awaits (opened + 1) (tokens ++ [.opening]) := by
  intro nesting operand tree derived
  rw [List.append_assoc]
  exact ⟨tokens, operand, tree, rfl, derived.sentence, awaits⟩

end Awaits

namespace Ended

variable {opened : Nat} {tokens : List Token}

theorem op (ended : Ended opened tokens) (op : Connective) :
    Awaits opened (tokens ++ [.op op]) := by
  intro nesting operand tree derived
  rw [List.append_assoc]
  cases opened with
  | zero =>
    obtain ⟨e, sentence⟩ := ended
    exact sentence.join_operand op derived
  | succ opened =>
    obtain ⟨outer, inner, e, rfl, sentence, awaits⟩ := ended
    obtain ⟨joined, longer⟩ := sentence.join_operand op derived
    exact ⟨outer, inner ++ .op op :: operand, joined, by simp, longer, awaits⟩

theorem closing (ended : Ended (opened + 1) tokens) : Ended opened (tokens ++ [.closing]) := by
  obtain ⟨outer, inner, e, rfl, ⟨nesting, derived⟩, awaits⟩ := ended
  rw [List.append_assoc, List.cons_append]
  exact awaits _ _ _ (.enclosed derived)

/-- What has ended inside parentheses is completed by closing them. -/
theorem viable (ended : Ended opened tokens) : Viable tokens := by
  induction opened generalizing tokens with
  | zero =>
    obtain ⟨e, sentence⟩ := ended
    exact sentence.viable
  | succ opened ih => exact (ih ended.closing).of_append

end Ended

theorem Awaits.viable {opened : Nat} {tokens : List Token} (awaits : Awaits opened tokens) :
    Viable tokens :=
  (awaits _ _ _ (.const 0 false)).viable.of_append

/-! ### Several tokens -/

/-- What an expectation says about the tokens in front of it. -/
def Expectation.Stands : Expectation → List Token → Prop
  | ⟨true, opened⟩, tokens => Awaits opened tokens
  | ⟨false, opened⟩, tokens => Ended opened tokens

namespace Expectation.Stands

variable {expected next : Expectation} {tokens : List Token}

/-- **One token** that may come next leads to what the next expectation says. -/
theorem step (stands : expected.Stands tokens) {token : Token}
    (taken : expected.step token = some next) : next.Stands (tokens ++ [token]) := by
  obtain ⟨operand, opened⟩ := expected
  cases operand with
  | true =>
    cases token with
    | var v => cases taken; exact stands _ _ _ (.var 0 v)
    | const value => cases taken; exact stands _ _ _ (.const 0 value)
    | not => cases taken; exact stands.not
    | opening => cases taken; exact stands.opening
    | op op => exact absurd rfl (step_true taken op)
    | closing => cases opened <;> cases taken
  | false =>
    rcases step_false taken with ⟨op, rfl⟩ | rfl
    · cases taken
      exact Ended.op stands op
    · cases opened with
      | zero => cases taken
      | succ opened =>
        cases taken
        exact Ended.closing stands

/-- **Several tokens** that may come next, one after the other, lead there as well. -/
theorem run (stands : expected.Stands tokens) {more : List Token}
    (taken : expected.run more = some next) : next.Stands (tokens ++ more) := by
  induction more generalizing expected tokens with
  | nil =>
    cases taken
    rwa [List.append_nil]
  | cons token more ih =>
    rw [run_cons] at taken
    obtain ⟨between, first, later⟩ := Option.bind_eq_some_iff.mp taken
    rw [List.append_cons]
    exact ih (stands.step first) later

theorem viable (stands : expected.Stands tokens) : Viable tokens := by
  obtain ⟨operand, opened⟩ := expected
  cases operand with
  | true => exact Awaits.viable stands
  | false => exact Ended.viable stands

end Expectation.Stands

theorem stands_of_run {expected : Expectation} {tokens : List Token}
    (taken : Expectation.run ⟨true, 0⟩ tokens = some expected) : expected.Stands tokens := by
  have start : Expectation.Stands ⟨true, 0⟩ [] := awaits_nil
  exact start.run taken

/-- **The sentences are the lists that lead from an operand to its end.** -/
theorem sentence_iff_run {tokens : List Token} :
    (∃ e, Sentence tokens e) ↔ Expectation.run ⟨true, 0⟩ tokens = some ⟨false, 0⟩ := by
  constructor
  · rintro ⟨e, nesting, derived⟩
    exact derived.run 0
  · exact fun taken => stands_of_run taken

/-- **The viable lists are those that meet the expectations.** -/
theorem viable_iff_run {tokens : List Token} :
    Viable tokens ↔ ∃ expected, Expectation.run ⟨true, 0⟩ tokens = some expected := by
  constructor
  · rintro ⟨more, e, sentence⟩
    have whole := sentence_iff_run.mp ⟨e, sentence⟩
    rw [Expectation.run_append] at whole
    obtain ⟨expected, taken, _⟩ := Option.bind_eq_some_iff.mp whole
    exact ⟨expected, taken⟩
  · rintro ⟨expected, taken⟩
    exact (stands_of_run taken).viable

end Switching
