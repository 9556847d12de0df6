/-
**Where an error of reading is.**

An error points at the first place that does not fit. The tokens in front of it begin some sentence,
and with the token at it they begin none; at the end of a text an operand or a parenthesis is
missing. Limits on the depth are another matter: of an error that names them nothing is said here.

* `openPlaces`: the parentheses that nothing closes, found with a stack;
* `foldl_matchParens_of_run`: tokens that meet the expectations touch only what they opened themselves;
* `Explained`: what each kind of error says about a text;
* `explained_of_blamed`: what the readers blame says so;
* `parse_explained`: every error of reading is explained, and exactly blank texts are empty.
-/

import Mathlib.Data.List.Basic
import Switching.Proofs.Reading.Failures
import Switching.Proofs.Reading.Sentences
import Switching.Proofs.Reading.Viability

namespace Switching

open Switching.Parser

/-! ### Parentheses -/

/-- One more token, in the place where it stands: an opening parenthesis is put on a stack, and a
closing one takes away the last that was put there. -/
def matchParens (stack : List Nat) : Nat × Token → List Nat
  | (place, .opening) => place :: stack
  | (_, .closing) => stack.tail
  | _ => stack

/-- The places of the opening parentheses that have no match, the last one first. -/
def openPlaces (placed : List (Nat × Token)) : List Nat := placed.foldl matchParens []

/-- **Tokens that meet the expectations touch only the parentheses that they opened themselves.** -/
theorem foldl_matchParens_of_run {expected next : Expectation} {placed : List (Nat × Token)}
    (taken : expected.run (placed.map Prod.snd) = some next) {own : List Nat}
    (opened : own.length = expected.opened) (stack : List Nat) :
    ∃ left, placed.foldl matchParens (own ++ stack) = left ++ stack ∧
      left.length = next.opened := by
  induction placed generalizing expected own with
  | nil =>
    cases taken
    exact ⟨own, rfl, opened⟩
  | cons entry rest ih =>
    obtain ⟨place, token⟩ := entry
    rw [List.map_cons, Expectation.run_cons] at taken
    obtain ⟨between, first, later⟩ := Option.bind_eq_some_iff.mp taken
    obtain ⟨operand, count⟩ := expected
    simp only at opened
    subst opened
    rw [List.foldl_cons]
    cases operand with
    | true =>
      cases token with
      | var v => cases first; exact ih later rfl
      | const value => cases first; exact ih later rfl
      | not => cases first; exact ih later rfl
      | opening =>
        cases first
        have longer : (place :: own).length = own.length + 1 := rfl
        exact ih later longer
      | op op => rw [Expectation.step_true_op] at first; cases first
      | closing => rw [Expectation.step_true_closing] at first; cases first
    | false =>
      rcases Expectation.step_false first with ⟨op, rfl⟩ | rfl
      · cases first
        exact ih later rfl
      · cases own with
        | nil => cases first
        | cons last own =>
          cases first
          exact ih later rfl

/-- The parenthesis behind which a sentence stands is the last one without a match. -/
theorem head_openPlaces {before inner : List (Nat × Token)} (place : Nat)
    (ends : Expectation.run ⟨true, 0⟩ (inner.map Prod.snd) = some ⟨false, 0⟩) :
    (openPlaces (before ++ (place, .opening) :: inner)).head? = some place := by
  unfold openPlaces
  rw [List.foldl_append, List.foldl_cons]
  have nothing : ([] : List Nat).length = 0 := rfl
  obtain ⟨left, same, none⟩ := foldl_matchParens_of_run ends nothing
    (matchParens (before.foldl matchParens []) (place, .opening))
  rw [List.nil_append] at same
  rw [same, List.length_eq_zero_iff.mp none]
  rfl

/-! ### The last token -/

/-- Whether an operand has to follow a token. -/
def Token.asksOperand : Token → Bool
  | not | op _ | opening => true
  | var _ | const _ | closing => false

theorem Expectation.operand_step {expected next : Expectation} {token : Token}
    (taken : expected.step token = some next) : next.operand = token.asksOperand := by
  obtain ⟨operand, opened⟩ := expected
  cases operand <;> cases opened <;> cases token <;> cases taken <;> rfl

/-- The last token tells whether an operand has to follow. -/
theorem exists_last_of_run {expected next : Expectation} {tokens : List Token}
    (taken : expected.run tokens = some next) (nonempty : tokens ≠ []) :
    ∃ before last, tokens = before ++ [last] ∧ last.asksOperand = next.operand := by
  rcases tokens.eq_nil_or_concat with rfl | ⟨before, last, rfl⟩
  · exact absurd rfl nonempty
  · rw [List.concat_eq_append, Expectation.run_append] at taken
    obtain ⟨between, _, final⟩ := Option.bind_eq_some_iff.mp taken
    rw [Expectation.run_cons] at final
    obtain ⟨reached, stepped, done⟩ := Option.bind_eq_some_iff.mp final
    cases done
    exact ⟨before, last, List.concat_eq_append, (Expectation.operand_step stepped).symm⟩

/-! ### What errors say -/

/-- Behind these tokens the normalized text has this item at this byte. -/
def StandsAt (normalized : List Char) (before : List Token) (place : Nat) (reading : Reading) :
    Prop :=
  ∃ front spelling after, lexemes normalized = front ++ ⟨place, spelling, reading⟩ :: after ∧
    Carries front before ∧ Text.byteLength (front.flatMap Lexeme.spelling) = place

/-- The tokens in front of this one begin a sentence, and with it they begin none. -/
def Misplaced (normalized : List Char) (before : List Token) (place : Nat) (token : Token) : Prop :=
  StandsAt normalized before place (.token token) ∧ Viable before ∧ ¬ Viable (before ++ [token])

/-- The text has tokens, which begin a sentence, and the last of which asks for an operand or
does not. -/
def EndsEarly (text : String) (placed : List (Nat × Token)) (asks : Bool) : Prop :=
  tokenize text = .ok placed ∧ Viable (placed.map Prod.snd) ∧
    ∃ before last, placed.map Prod.snd = before ++ [last] ∧ last.asksOperand = asks

/-- What an error of reading says about a text. -/
def Explained (text : String) : ParseError → Prop
  | ⟨.empty, place⟩ => Text.normalize text.toList = [] ∧ place = 0
  | ⟨.unexpectedChar c, place⟩ =>
    tokenize text = .error ⟨.unexpectedChar c, place⟩ ∧
      ∃ before, StandsAt (Text.normalize text.toList) before place (.unknown c) ∧ Viable before
  | ⟨.unexpectedToken name, place⟩ =>
    ∃ before token, Misplaced (Text.normalize text.toList) before place token ∧
      name = token.text ∧ ¬ (token = .closing ∧ ∃ e, Sentence before e)
  | ⟨.unmatchedParen, place⟩ =>
    ∃ before, Misplaced (Text.normalize text.toList) before place .closing ∧
      ∃ e, Sentence before e
  | ⟨.unexpectedEnd, place⟩ =>
    place = Text.byteLength (Text.normalize text.toList) ∧ ∃ placed, EndsEarly text placed true
  | ⟨.unclosedParen, place⟩ =>
    ∃ placed, EndsEarly text placed false ∧ (openPlaces placed).head? = some place
  | ⟨.tooDeep, _⟩ => True

/-! ### From what is blamed -/

theorem standsAt_of_leads {normalized : List Char} {next : Expectation} {place : Nat}
    {spelling : List Char} {reading : Reading} {after : List Lexeme}
    (leads : Leads ⟨true, 0⟩ (lexemes normalized) next (⟨place, spelling, reading⟩ :: after)) :
    ∃ before, StandsAt normalized before place reading ∧
      Expectation.run ⟨true, 0⟩ before = some next := by
  obtain ⟨front, before, split, carried, taken⟩ := leads
  exact ⟨before, ⟨front, spelling, after, split, carried, (start_of_lexemes split).symm⟩, taken⟩

theorem misplaced_of_leads {normalized : List Char} {next : Expectation} {place : Nat}
    {spelling : List Char} {token : Token} {after : List Lexeme}
    (leads : Leads ⟨true, 0⟩ (lexemes normalized) next (⟨place, spelling, .token token⟩ :: after))
    (stuck : next.step token = none) :
    ∃ before, Misplaced normalized before place token ∧
      Expectation.run ⟨true, 0⟩ before = some next := by
  obtain ⟨before, stands, taken⟩ := standsAt_of_leads leads
  refine ⟨before, ⟨stands, viable_iff_run.mpr ⟨next, taken⟩, ?_⟩, taken⟩
  intro viable
  obtain ⟨reached, further⟩ := viable_iff_run.mp viable
  rw [Expectation.run_append, taken] at further
  have stops : next.run [token] = none := by
    rw [Expectation.run_cons, stuck]
    rfl
  exact absurd (stops.symm.trans further) nofun

/-- The first unknown character is where tokens end. -/
theorem Carries.placedTokens_unknown {front : List Lexeme} {before : List Token}
    (carried : Carries front before) (place : Nat) (spelling : List Char) (c : Char)
    (after : List Lexeme) :
    placedTokens (front ++ ⟨place, spelling, .unknown c⟩ :: after) =
      .error ⟨.unexpectedChar c, place⟩ := by
  refine placedTokens_eq_error_iff.mpr ⟨front, _, after, c, rfl, ?_, rfl, rfl⟩
  intro earlier member
  have reading := List.mem_map_of_mem (f := Lexeme.reading) member
  rw [carried] at reading
  obtain ⟨token, _, same⟩ := List.mem_map.mp reading
  exact ⟨token, same.symm⟩

section Inked

variable {text : String} (inked : Text.normalize text.toList ≠ [])

include inked

/-- A text whose tokens meet the expectations has an operand to come, or not, behind the last. -/
theorem endsEarly_of_run {tokens : List Token} {next : Expectation}
    (carried : Carries (lexemes (Text.normalize text.toList)) tokens)
    (taken : Expectation.run ⟨true, 0⟩ tokens = some next) :
    EndsEarly text (((lexemes (Text.normalize text.toList)).map Lexeme.start).zip tokens)
      next.operand := by
  have same := List.map_snd_zip (Nat.le_of_eq carried.length_eq.symm)
  have nonempty : tokens ≠ [] := by
    rintro rfl
    have whole := flatMap_spelling_lexemes (Text.normalize text.toList)
    rw [carries_nil_iff.mp carried] at whole
    exact inked whole.symm
  refine ⟨?_, ?_, ?_⟩
  · rw [tokenize_of_normalize_ne_nil inked, carried.placedTokens_eq]
  · rw [same]
    exact viable_iff_run.mpr ⟨next, taken⟩
  · rw [same]
    exact exists_last_of_run taken nonempty

/-- A parenthesis behind which only a sentence stands is the last one without a match. -/
theorem exists_unclosed {opened place : Nat} {spelling : List Char} {inner : List Lexeme}
    (leads : Leads ⟨true, 0⟩ (lexemes (Text.normalize text.toList)) ⟨true, opened⟩
      (⟨place, spelling, .token .opening⟩ :: inner))
    (ends : Leads ⟨true, 0⟩ inner ⟨false, 0⟩ []) :
    ∃ placed, EndsEarly text placed false ∧ (openPlaces placed).head? = some place := by
  obtain ⟨front, tokens, split, carried, taken⟩ := leads
  obtain ⟨inside, others, rfl, carriedInside, ended⟩ := ends
  rw [List.append_nil] at split
  have whole : Carries (lexemes (Text.normalize text.toList)) (tokens ++ .opening :: others) := by
    rw [split]
    exact carried.append ((carries_singleton place spelling .opening).append carriedInside)
  have run : Expectation.run ⟨true, 0⟩ (tokens ++ .opening :: others) =
      some ⟨false, opened + 1⟩ := by
    obtain ⟨e, nesting, derived⟩ := sentence_iff_run.mpr ended
    rw [Expectation.run_append, taken]
    exact derived.run (opened + 1)
  have inner : Expectation.run ⟨true, 0⟩ (((inside.map Lexeme.start).zip others).map Prod.snd) =
      some ⟨false, 0⟩ := by
    rw [List.map_snd_zip (Nat.le_of_eq carriedInside.length_eq.symm)]
    exact ended
  refine ⟨_, endsEarly_of_run inked whole run, ?_⟩
  rw [split, List.map_append, List.zip_append carried.length_eq]
  exact head_openPlaces place inner

/-- **What is blamed explains the error.** -/
theorem explained_of_blamed {e : ParseError}
    (blamed : Blamed (Text.byteLength (Text.normalize text.toList)) ⟨true, 0⟩
      (lexemes (Text.normalize text.toList)) e) : Explained text e := by
  cases blamed with
  | @unexpectedChar next place spelling c after leads =>
    obtain ⟨before, stands, taken⟩ := standsAt_of_leads leads
    refine ⟨?_, before, stands, viable_iff_run.mpr ⟨_, taken⟩⟩
    obtain ⟨front, tokens, split, carried, _⟩ := leads
    rw [tokenize_of_normalize_ne_nil inked, split, carried.placedTokens_unknown]
  | @unexpectedToken next place spelling token after leads stuck early =>
    obtain ⟨before, misplaced, taken⟩ := misplaced_of_leads leads stuck
    refine ⟨before, token, misplaced, rfl, ?_⟩
    rintro ⟨closing, sentence⟩
    rw [sentence_iff_run, taken] at sentence
    have operand := early closing
    rw [Option.some.inj sentence] at operand
    cases operand
  | unexpectedEnd leads =>
    obtain ⟨front, tokens, split, carried, taken⟩ := leads
    rw [List.append_nil] at split
    subst split
    exact ⟨rfl, _, endsEarly_of_run inked carried taken⟩
  | unclosedParen leads ends => exact exists_unclosed inked leads ends
  | unmatchedParen leads =>
    obtain ⟨before, misplaced, taken⟩ := misplaced_of_leads leads rfl
    exact ⟨before, misplaced, sentence_iff_run.mpr taken⟩
  | tooDeep place => exact trivial

end Inked

/-- **Every error of reading is explained**: it points at the first place that does not fit. That a
text is empty is said of the blank texts, and of no others. -/
theorem parse_explained (text : String) :
    (∀ e, parse text = .error e → Explained text e) ∧
    ∀ place, parse text = .error ⟨.empty, place⟩ ↔
      Text.normalize text.toList = [] ∧ place = 0 := by
  have explained : ∀ e, parse text = .error e → Explained text e := by
    intro e failed
    by_cases blank : Text.normalize text.toList = []
    · unfold parse parseNormalized at failed
      rw [if_pos blank] at failed
      cases failed
      exact ⟨blank, rfl⟩
    · rw [parse_of_normalize_ne_nil blank] at failed
      exact explained_of_blamed blank (whole_blamed failed)
  refine ⟨explained, fun place => ⟨explained _, ?_⟩⟩
  rintro ⟨blank, rfl⟩
  unfold parse parseNormalized
  rw [if_pos blank]

/-- Of two open parentheses the inner one is named, by its byte without blanks. -/
theorem explained_unclosed :
    parse "(a or (b" = .error ⟨.unclosedParen, 4⟩ ∧
      Explained "(a or (b" ⟨.unclosedParen, 4⟩ := by
  have failed : parse "(a or (b" = .error ⟨.unclosedParen, 4⟩ := by decide +kernel
  exact ⟨failed, (parse_explained "(a or (b").1 _ failed⟩

end Switching
