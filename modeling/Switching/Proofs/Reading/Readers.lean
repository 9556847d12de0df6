/-
**Readers by level.**

What the proofs about reading share. A list of lexemes carries the tokens that its lexemes are; a
level of the grammar has a reader; and a reader stops where the next lexeme is a token that does
not bind as tightly as its level.

* `carries_append_iff`, `Carries.unique`: carried tokens split with the lexemes and are unique;
* `Derives.lift`: what is written at a level is written at every looser one;
* `readerAt_joined`: the reader of a connective is a chain of readers of its operands;
* `readerAt_induction`: so what chains keep, all readers have;
* `chainFrom_stop`, `chainFrom_op`: what a chain does at the lexeme behind its first operands;
* `resume_stop`: where a level stops, its reader has found its tree.
-/

import Switching.Expr.Grammar
import Switching.Expr.Parser
import Switching.Expr.Printer

namespace Switching

/-! ### Lexemes and the tokens they carry -/

/-- The lexemes are these tokens, none of them being unknown. -/
def Carries (pieces : List Lexeme) (tokens : List Token) : Prop :=
  pieces.map Lexeme.reading = tokens.map Reading.token

theorem carries_nil_iff {pieces : List Lexeme} : Carries pieces [] ↔ pieces = [] := by
  simp [Carries]

theorem carries_cons_iff {pieces : List Lexeme} {token : Token} {tokens : List Token} :
    Carries pieces (token :: tokens) ↔
      ∃ start spelling rest, pieces = ⟨start, spelling, .token token⟩ :: rest ∧
        Carries rest tokens := by
  unfold Carries
  constructor
  · intro same
    cases pieces with
    | nil => cases same
    | cons piece rest =>
      obtain ⟨start, spelling, reading⟩ := piece
      simp only [List.map_cons, List.cons.injEq] at same
      obtain ⟨rfl, others⟩ := same
      exact ⟨start, spelling, rest, rfl, others⟩
  · rintro ⟨start, spelling, rest, rfl, others⟩
    rw [List.map_cons, List.map_cons, others]

theorem carries_append_iff {pieces : List Lexeme} {first second : List Token} :
    Carries pieces (first ++ second) ↔
      ∃ before after, pieces = before ++ after ∧ Carries before first ∧ Carries after second := by
  unfold Carries
  rw [List.map_append, List.map_eq_append_iff]

theorem Carries.append {before after : List Lexeme} {first second : List Token}
    (left : Carries before first) (right : Carries after second) :
    Carries (before ++ after) (first ++ second) :=
  carries_append_iff.mpr ⟨before, after, rfl, left, right⟩

theorem carries_singleton (start : Nat) (spelling : List Char) (token : Token) :
    Carries [⟨start, spelling, .token token⟩] [token] := rfl

theorem Carries.unique {pieces : List Lexeme} {first second : List Token}
    (one : Carries pieces first) (other : Carries pieces second) : first = second := by
  have same : first.map Reading.token = second.map Reading.token := one.symm.trans other
  exact (List.map_inj_right fun left right equal => Reading.token.inj equal).mp same

theorem Carries.length_eq {pieces : List Lexeme} {tokens : List Token}
    (carried : Carries pieces tokens) : (pieces.map Lexeme.start).length = tokens.length := by
  have both := congrArg List.length carried
  rwa [List.length_map, List.length_map, ← List.length_map Lexeme.start] at both

/-- Carried tokens are placed where their lexemes start. -/
theorem Carries.placedTokens_eq {pieces : List Lexeme} {tokens : List Token}
    (carried : Carries pieces tokens) :
    placedTokens pieces = .ok ((pieces.map Lexeme.start).zip tokens) := by
  induction pieces generalizing tokens with
  | nil => rfl
  | cons piece rest ih =>
    cases tokens with
    | nil => cases carried
    | cons token others =>
      obtain ⟨start, spelling, _, same, carried⟩ := carries_cons_iff.mp carried
      cases same
      simp only [placedTokens, ih carried, List.map_cons, List.zip_cons_cons]

/-- Exactly the lexemes that carry tokens have a list of placed tokens, which are the same. -/
theorem carries_iff_placedTokens {pieces : List Lexeme} {tokens : List Token} :
    Carries pieces tokens ↔
      ∃ placed, placedTokens pieces = .ok placed ∧ placed.map Prod.snd = tokens := by
  constructor
  · intro carried
    exact ⟨_, carried.placedTokens_eq, List.map_snd_zip (Nat.le_of_eq carried.length_eq.symm)⟩
  · rintro ⟨placed, found, rfl⟩
    have readings := congrArg (List.map Prod.snd) (placedTokens_eq_ok_iff.mp found)
    simpa [Carries, Function.comp_def] using readings

/-! ### Levels -/

namespace Level

/-- How tightly the operators of a level bind at least. -/
def strength : Level → Nat
  | joined op => op.strength
  | unary => Expr.negationStrength

/-- The level at which the operands of a level are read. -/
def inside : Level → Level
  | joined op => operand op
  | unary => unary

theorem strength_operand (op : Connective) : (operand op).strength = op.strength + 1 := by
  cases op <;> rfl

theorem strength_le_inside (level : Level) : level.strength ≤ level.inside.strength := by
  cases level with
  | joined op => exact Nat.le_of_lt (Nat.lt_of_lt_of_eq (Nat.lt_succ_self _)
      (strength_operand op).symm)
  | unary => exact Nat.le_refl _

theorem strength_le_negation (level : Level) : level.strength ≤ Expr.negationStrength := by
  cases level with
  | joined op => cases op <;> decide
  | unary => exact Nat.le_refl _

theorem strength_whole_le (level : Level) : whole.strength ≤ level.strength := by
  cases level with
  | joined op => cases op <;> decide
  | unary => decide

theorem strength_injective {first second : Level} (equal : first.strength = second.strength) :
    first = second := by
  have unary_ne (op : Connective) : op.strength ≠ Expr.negationStrength := by
    cases op <;> decide
  cases first with
  | joined op =>
    cases second with
    | joined other => rw [Connective.strength_injective equal]
    | unary => exact absurd equal (unary_ne op)
  | unary =>
    cases second with
    | joined other => exact absurd equal.symm (unary_ne other)
    | unary => rfl

end Level

/-- **What is written at a level is written at every looser one**, as an operand of its own. -/
theorem Derives.lift {nesting : Nat} {tight loose : Level} {tokens : List Token} {e : Expr}
    (derived : Derives nesting tight tokens e) (looser : loose.strength ≤ tight.strength) :
    Derives nesting loose tokens e := by
  obtain ⟨steps, further⟩ := Nat.exists_eq_add_of_le looser
  induction steps generalizing loose with
  | zero => exact Level.strength_injective further ▸ derived
  | succ steps ih =>
    cases loose with
    | unary =>
      have bound := tight.strength_le_negation
      have least : Expr.negationStrength + (steps + 1) ≤ Expr.negationStrength := further ▸ bound
      omega
    | joined op =>
      have operand : (Level.operand op).strength + steps = tight.strength := by
        rw [further, Level.strength_operand]
        show op.strength + 1 + steps = op.strength + (steps + 1)
        omega
      exact .single (ih (Nat.le.intro operand) operand.symm)

/-- A reader of the level takes none of these lexemes: there are none, or the first one is a token
and no connective that binds as tightly as the level. -/
def Stops (level : Level) (rest : List Lexeme) : Prop :=
  ∀ piece ∈ rest.head?, ∃ token, piece.reading = .token token ∧
    ∀ op, token = .op op → op.strength < level.strength

theorem stops_nil (level : Level) : Stops level [] := by
  intro piece member
  cases member

/-- At a closing parenthesis every level stops. -/
theorem stops_closing (level : Level) (start : Nat) (spelling : List Char) (rest : List Lexeme) :
    Stops level (⟨start, spelling, .token .closing⟩ :: rest) := by
  intro piece member
  cases member
  exact ⟨.closing, rfl, fun op same => by cases same⟩

/-- The operands of a connective stop at the connective. -/
theorem stops_op (op : Connective) (start : Nat) (spelling : List Char) (rest : List Lexeme) :
    Stops (.operand op) (⟨start, spelling, .token (.op op)⟩ :: rest) := by
  intro piece member
  cases member
  refine ⟨.op op, rfl, fun other same => ?_⟩
  cases same
  rw [Level.strength_operand]
  exact Nat.lt_succ_self _

theorem Stops.mono {loose tight : Level} {rest : List Lexeme} (stops : Stops loose rest)
    (tighter : loose.strength ≤ tight.strength) : Stops tight rest := by
  intro piece member
  obtain ⟨token, reading, weaker⟩ := stops piece member
  exact ⟨token, reading, fun op same => Nat.lt_of_lt_of_le (weaker op same) tighter⟩

namespace Parser

/-! ### The readers -/

/-- The reader of a level, from a reader of negations, parentheses and leaves. -/
def readerAt (limit : Nat) (operand : Reader) : Level → Reader
  | .unary => operand
  | .joined .xor => chain limit .xor operand
  | .joined .and => chain limit .and (chain limit .xor operand)
  | .joined .or => expression limit operand

theorem readerAt_joined (limit : Nat) (operand : Reader) (op : Connective) :
    readerAt limit operand (.joined op) =
      chain limit op (readerAt limit operand (.operand op)) := by
  cases op <;> rfl

/-- **What the innermost reader has and every chain keeps**, the readers of all levels have. -/
theorem readerAt_induction {limit : Nat} {operand : Reader} {holds : Level → Reader → Prop}
    (innermost : holds .unary operand)
    (chained : ∀ op reader, holds (.operand op) reader → holds (.joined op) (chain limit op reader))
    (level : Level) : holds level (readerAt limit operand level) := by
  have xor := chained .xor operand innermost
  have and := chained .and _ xor
  have or := chained .or _ and
  cases level with
  | unary => exact innermost
  | joined op =>
    cases op with
    | xor => exact xor
    | and => exact and
    | or => exact or

theorem chain_of_ok {limit : Nat} {op : Connective} {operand : Reader} {pieces : List Lexeme}
    {first : Parsed} (found : operand pieces = .ok first) :
    chain limit op operand pieces =
      chainFrom limit op operand first.expr first.depth first.rest := by
  unfold chain
  rw [found]

theorem chain_of_error {limit : Nat} {op : Connective} {operand : Reader} {pieces : List Lexeme}
    {e : ParseError} (failed : operand pieces = .error e) :
    chain limit op operand pieces = .error e := by
  unfold chain
  rw [failed]

theorem chainFrom_stop {op : Connective} {rest : List Lexeme} (stops : Stops (.joined op) rest)
    (limit : Nat) (operand : Reader) (left : Expr) (depth : Nat) :
    chainFrom limit op operand left depth rest = .ok ⟨left, depth, rest⟩ := by
  cases rest with
  | nil => rw [chainFrom]
  | cons piece others =>
    obtain ⟨start, spelling, reading⟩ := piece
    obtain ⟨token, same, weaker⟩ := stops _ rfl
    cases same
    have other : token ≠ .op op := fun same => Nat.lt_irrefl _ (weaker op same)
    rw [chainFrom, if_neg other]

/-- At its connective a chain goes on with the next operand. -/
theorem chainFrom_op (limit : Nat) (op : Connective) (operand : Reader) (left : Expr)
    (depth start : Nat) (spelling : List Char) (rest : List Lexeme) :
    chainFrom limit op operand left depth (⟨start, spelling, .token (.op op)⟩ :: rest) =
      match operand rest with
      | .error e => .error e
      | .ok right =>
        if max depth right.depth < limit then
          chainFrom limit op operand (.binary op left right.expr) (max depth right.depth + 1)
            right.rest
        else .error ⟨.tooDeep, start⟩ := by
  rw [chainFrom]
  exact if_pos rfl

/-- What the reader of a level does once it has read a tree and comes to these lexemes. -/
def resume (limit : Nat) (operand : Reader) : Level → Expr → List Lexeme → Except ParseError Parsed
  | .unary, e, rest => .ok ⟨e, e.depth, rest⟩
  | .joined op, e, rest =>
    chainFrom limit op (readerAt limit operand (.operand op)) e e.depth rest

/-- Where a level stops, its reader has found its tree. -/
theorem resume_stop {level : Level} {rest : List Lexeme} (stops : Stops level rest) (limit : Nat)
    (operand : Reader) (e : Expr) :
    resume limit operand level e rest = .ok ⟨e, e.depth, rest⟩ := by
  cases level with
  | joined op => exact chainFrom_stop stops limit _ e e.depth
  | unary => rfl

/-! ### Single steps of the innermost reader -/

section Unary

variable (limit finish allowance start : Nat) (spelling : List Char) (rest : List Lexeme)

theorem unary_nil : unary limit finish allowance [] = .error ⟨.unexpectedEnd, finish⟩ := by
  cases allowance <;> rfl

theorem unary_unknown (c : Char) :
    unary limit finish allowance (⟨start, spelling, .unknown c⟩ :: rest) =
      .error ⟨.unexpectedChar c, start⟩ := by
  cases allowance <;> rfl

theorem unary_var (v : Variable) :
    unary limit finish allowance (⟨start, spelling, .token (.var v)⟩ :: rest) =
      .ok ⟨.var v, 0, rest⟩ := by
  cases allowance <;> rfl

theorem unary_const (value : Bool) :
    unary limit finish allowance (⟨start, spelling, .token (.const value)⟩ :: rest) =
      .ok ⟨.const value, 0, rest⟩ := by
  cases allowance <;> rfl

theorem unary_op (op : Connective) :
    unary limit finish allowance (⟨start, spelling, .token (.op op)⟩ :: rest) =
      .error ⟨.unexpectedToken op.text, start⟩ := by
  cases allowance <;> rfl

theorem unary_closing :
    unary limit finish allowance (⟨start, spelling, .token .closing⟩ :: rest) =
      .error ⟨.unexpectedToken Token.closing.text, start⟩ := by
  cases allowance <;> rfl

/-- Without an allowance neither a negation nor a parenthesis is entered. -/
theorem unary_zero {token : Token} (nests : token = .not ∨ token = .opening) :
    unary limit finish 0 (⟨start, spelling, .token token⟩ :: rest) =
      .error ⟨.tooDeep, start⟩ := by
  rcases nests with rfl | rfl <;> rfl

theorem unary_not :
    unary limit finish (allowance + 1) (⟨start, spelling, .token .not⟩ :: rest) =
      match unary limit finish allowance rest with
      | .error e => .error e
      | .ok inner =>
        if inner.depth < limit then .ok ⟨.not inner.expr, inner.depth + 1, inner.rest⟩
        else .error ⟨.tooDeep, start⟩ := rfl

theorem unary_opening :
    unary limit finish (allowance + 1) (⟨start, spelling, .token .opening⟩ :: rest) =
      match readerAt limit (unary limit finish allowance) .whole rest with
      | .error e => .error e
      | .ok inner => close start inner := rfl

end Unary

end Parser

end Switching
