/-
**No printed parenthesis is redundant.**

Of all the sentences that stand for a tree the printed one has the fewest parentheses: where the
printer writes a pair, the place asks for a tighter level than the tree has, and the grammar comes to
such a place by a parenthesis only. What stands between two that match is an operand by itself, so
that a sentence is left when the pair is taken away; and as it has fewer parentheses than the printed
one, it stands for another tree.

* `Derives.count_opening_le`: no sentence of a tree has fewer parentheses than the printed one;
* `Expectation.run_lower`: tokens that match their own parentheses need none of those around them;
* `run_of_unenclosed`: a sentence without a matching pair is a sentence;
* `Tells.split`: a character that only one token is printed with shows where that token is;
* `parse_of_unenclosed`: the printed text without a matching pair is read as another tree, or found
  too deep.
-/

import Mathlib.Data.List.Infix
import Switching.Proofs.Printing.RoundTrip
import Switching.Proofs.Reading.Viability

namespace Switching

/-! ### The fewest parentheses -/

namespace Expr

theorem count_opening_encloseTokens (strength least : Nat) (tokens : List Token) :
    (encloseTokens strength least tokens).count .opening =
      tokens.count .opening + if strength < least then 1 else 0 := by
  unfold encloseTokens
  split <;> simp

/-- A place that asks for more takes no parentheses away. -/
theorem count_opening_tokens_mono {loose tight : Nat} (tighter : loose ≤ tight) (e : Expr) :
    (e.tokens loose).count .opening ≤ (e.tokens tight).count .opening := by
  rw [tokens_eq_enclose loose, tokens_eq_enclose tight, count_opening_encloseTokens,
    count_opening_encloseTokens]
  split <;> split <;> omega

/-- No place asks for more than one pair. -/
theorem count_opening_tokens_le (loose tight : Nat) (e : Expr) :
    (e.tokens tight).count .opening ≤ (e.tokens loose).count .opening + 1 := by
  rw [tokens_eq_enclose loose, tokens_eq_enclose tight, count_opening_encloseTokens,
    count_opening_encloseTokens]
  split <;> split <;> omega

end Expr

/-- **No sentence of a tree has fewer parentheses than the printed one**, at any level. -/
theorem Derives.count_opening_le {nesting : Nat} {level : Level} {tokens : List Token} {e : Expr}
    (derived : Derives nesting level tokens e) :
    (e.tokens level.strength).count .opening ≤ tokens.count .opening := by
  induction derived with
  | var _ v => exact Nat.le_refl _
  | const _ value => exact Nat.le_refl _
  | @not nesting tokens e _ ih =>
    have printed : e.not.tokens Level.unary.strength =
        .not :: e.tokens Level.unary.strength := rfl
    rw [printed, List.count_cons_of_ne (by decide), List.count_cons_of_ne (by decide)]
    exact ih
  | @enclosed nesting tokens e _ ih =>
    have most := e.count_opening_tokens_le Level.whole.strength Level.unary.strength
    rw [List.count_cons_self, List.count_append]
    omega
  | @single nesting op tokens e _ ih =>
    exact Nat.le_trans (e.count_opening_tokens_mono (Level.strength_le_inside (.joined op))) ih
  | @join nesting op before after l r _ _ left right =>
    have printed : (Expr.binary op l r).tokens (Level.joined op).strength =
        l.tokens op.strength ++ .op op :: r.tokens (op.strength + 1) :=
      Expr.encloseTokens_of_le (Nat.le_refl _) _
    rw [Level.strength_operand] at right
    rw [printed, List.count_append, List.count_append, List.count_cons_of_ne Token.noConfusion,
      List.count_cons_of_ne Token.noConfusion]
    exact Nat.add_le_add left right

/-! ### Matching parentheses -/

/-- Every closing item has an opening one of its own in front of it, and every opening item a closing
one behind it. -/
def Balanced {α : Type} [DecidableEq α] (opening closing : α) (items : List α) : Prop :=
  (∀ front, front <+: items → front.count closing ≤ front.count opening) ∧
    items.count closing = items.count opening

instance {α : Type} [DecidableEq α] (opening closing : α) (items : List α) :
    Decidable (Balanced opening closing items) :=
  decidable_of_iff
    ((∀ front ∈ items.inits, front.count closing ≤ front.count opening) ∧
      items.count closing = items.count opening)
    (by simp only [List.mem_inits, Balanced])

namespace Expectation

/-- A token that closes no parenthesis from outside does not need to know of any. -/
theorem step_lower {operand : Bool} {own outside : Nat} {token : Token} {next : Expectation}
    (taken : step ⟨operand, own + outside⟩ token = some next)
    (closes : token = .closing → 0 < own) :
    ∃ left, next.opened = left + outside ∧
      left + [token].count .closing = own + [token].count .opening ∧
      step ⟨operand, own⟩ token = some ⟨next.operand, left⟩ := by
  cases operand with
  | true =>
    cases token with
    | var v => cases taken; exact ⟨own, rfl, rfl, rfl⟩
    | const value => cases taken; exact ⟨own, rfl, rfl, rfl⟩
    | not => cases taken; exact ⟨own, rfl, rfl, rfl⟩
    | opening => cases taken; exact ⟨own + 1, Nat.add_right_comm .., rfl, rfl⟩
    | op op => exact absurd rfl (step_true taken op)
    | closing => cases (own + outside) <;> cases taken
  | false =>
    rcases step_false taken with ⟨op, rfl⟩ | rfl
    · cases taken
      exact ⟨own, rfl, rfl, rfl⟩
    · obtain ⟨left, rfl⟩ := Nat.exists_eq_succ_of_ne_zero (Nat.ne_of_gt (closes rfl))
      rw [Nat.succ_add] at taken
      cases taken
      exact ⟨left, rfl, rfl, rfl⟩

/-- **Tokens that match their own parentheses** need none of those that are open around them. -/
theorem run_lower {operand : Bool} {own outside : Nat} {tokens : List Token} {next : Expectation}
    (taken : run ⟨operand, own + outside⟩ tokens = some next)
    (closes : ∀ front, front <+: tokens → front.count .closing ≤ own + front.count .opening) :
    ∃ left, next.opened = left + outside ∧
      left + tokens.count .closing = own + tokens.count .opening ∧
      run ⟨operand, own⟩ tokens = some ⟨next.operand, left⟩ := by
  induction tokens generalizing operand own with
  | nil =>
    cases taken
    exact ⟨own, rfl, rfl, rfl⟩
  | cons token tokens ih =>
    rw [run_cons] at taken
    obtain ⟨⟨operand', opened⟩, first, later⟩ := Option.bind_eq_some_iff.mp taken
    obtain ⟨between, rfl, kept, step⟩ := step_lower first fun same => by
      have front := closes [token] (List.prefix_append [token] tokens)
      rw [same] at front
      exact front
    have behind : ∀ front, front <+: tokens →
        front.count .closing ≤ between + front.count .opening := by
      intro front part
      have longer := closes ([token] ++ front) ((List.prefix_append_right_inj [token]).mpr part)
      rw [List.count_append, List.count_append] at longer
      omega
    obtain ⟨left, same, count, runs⟩ := ih later behind
    refine ⟨left, same, ?_, ?_⟩
    · rw [← List.singleton_append, List.count_append, List.count_append]
      omega
    · rw [run_cons, step]
      exact runs

end Expectation

/-- **A sentence without a matching pair of parentheses** is a sentence. -/
theorem run_of_unenclosed {before inside after : List Token}
    (balanced : Balanced .opening .closing inside)
    (taken : Expectation.run ⟨true, 0⟩ (before ++ .opening :: (inside ++ .closing :: after)) =
      some ⟨false, 0⟩) :
    Expectation.run ⟨true, 0⟩ (before ++ inside ++ after) = some ⟨false, 0⟩ := by
  rw [Expectation.run_append] at taken
  obtain ⟨⟨operand, opened⟩, front, taken⟩ := Option.bind_eq_some_iff.mp taken
  rw [Expectation.run_cons] at taken
  obtain ⟨entered, opens, taken⟩ := Option.bind_eq_some_iff.mp taken
  rw [Expectation.run_append] at taken
  obtain ⟨⟨ended, last⟩, inner, taken⟩ := Option.bind_eq_some_iff.mp taken
  rw [Expectation.run_cons] at taken
  obtain ⟨next, closes, rest⟩ := Option.bind_eq_some_iff.mp taken
  cases operand with
  | false => cases opened <;> cases opens
  | true =>
    cases opens
    obtain ⟨left, same, count, lower⟩ := Expectation.run_lower inner fun front part =>
      Nat.le_trans (balanced.1 front part) (Nat.le_add_left _ _)
    obtain rfl : left = opened := by
      have equal := balanced.2
      omega
    simp only at same
    subst same
    cases ended with
    | true => cases closes
    | false =>
      cases closes
      rw [Expectation.run_append, Expectation.run_append, front, Option.bind_some, lower,
        Option.bind_some]
      exact rest

/-! ### Parentheses in the text -/

/-- The character is written for one token only, and is all that is written for it. -/
def Tells {α β : Type} (written : α → List β) (c : β) (token : α) : Prop :=
  written token = [c] ∧ ∀ other, c ∈ written other → other = token

namespace Tells

variable {α β : Type} [DecidableEq α] {written : α → List β} {c : β} {token : α}

/-- **The character shows where the token is.** -/
theorem split (tells : Tells written c token) {tokens : List α} {before after : List β}
    (whole : tokens.flatMap written = before ++ c :: after) :
    ∃ front behind, tokens = front ++ token :: behind ∧ front.flatMap written = before ∧
      behind.flatMap written = after := by
  induction tokens generalizing before with
  | nil => simp at whole
  | cons first others ih =>
    by_cases here : first = token
    · subst here
      rw [List.flatMap_cons, tells.1] at whole
      cases before with
      | nil =>
        cases whole
        exact ⟨[], others, rfl, rfl, rfl⟩
      | cons sign before =>
        rw [List.singleton_append, List.cons_append, List.cons.injEq] at whole
        obtain ⟨rfl, later⟩ := whole
        obtain ⟨front, behind, rfl, rfl, rfl⟩ := ih later
        exact ⟨first :: front, behind, rfl, by rw [List.flatMap_cons, tells.1]; rfl, rfl⟩
    · rw [List.flatMap_cons, List.append_eq_append_iff] at whole
      rcases whole with ⟨more, rfl, later⟩ | ⟨rest, word, later⟩
      · obtain ⟨front, behind, rfl, rfl, rfl⟩ := ih later
        exact ⟨first :: front, behind, rfl, List.flatMap_cons, rfl⟩
      · cases rest with
        | nil =>
          -- The first word ends right in front of the character, which belongs to a later one.
          have nearer : others.flatMap written = [] ++ c :: after := later.symm
          obtain ⟨front, behind, rfl, nothing, rfl⟩ := ih nearer
          refine ⟨first :: front, behind, rfl, ?_, rfl⟩
          rw [List.flatMap_cons, nothing, word, List.append_nil, List.append_nil]
        | cons sign rest =>
          cases later
          refine absurd (tells.2 first ?_) here
          rw [word]
          exact List.mem_append_right _ (List.mem_cons_self ..)

theorem count_flatMap [DecidableEq β] (tells : Tells written c token) (tokens : List α) :
    (tokens.flatMap written).count c = tokens.count token := by
  induction tokens with
  | nil => rfl
  | cons first others ih =>
    rw [List.flatMap_cons, List.count_append, ih, Nat.add_comm]
    by_cases here : first = token
    · rw [here, tells.1, List.count_singleton_self, List.count_cons_self]
    · rw [List.count_cons_of_ne here,
        List.count_eq_zero_of_not_mem fun member => here (tells.2 first member), Nat.add_zero]

end Tells

theorem Balanced.of_flatMap {α β : Type} [DecidableEq α] [DecidableEq β] {written : α → List β}
    {opening closing : α} {left right : β} (opens : Tells written left opening)
    (closes : Tells written right closing) {tokens : List α}
    (balanced : Balanced left right (tokens.flatMap written)) : Balanced opening closing tokens := by
  refine ⟨?_, ?_⟩
  · rintro front ⟨behind, rfl⟩
    rw [← opens.count_flatMap, ← closes.count_flatMap]
    refine balanced.1 _ ?_
    rw [List.flatMap_append]
    exact List.prefix_append ..
  · rw [← opens.count_flatMap, ← closes.count_flatMap]
    exact balanced.2

/-- A visible character of a text is left when the text is normalized. -/
theorem Text.mem_normalize {c : Char} (same : normalize [c] = [c]) {text : List Char}
    (member : c ∈ text) : c ∈ normalize text := by
  obtain ⟨before, after, rfl⟩ := List.append_of_mem member
  rw [← List.singleton_append, normalize_append, normalize_append, same]
  simp

/-- The signs of the parentheses, with their tokens. -/
def parens : List (Char × Token) := [('(', .opening), (')', .closing)]

/-- No other token is spelled with a parenthesis. -/
theorem Spells.eq_of_mem {token : Token} {chars : List Char} (spelt : Spells token chars)
    {paren : Char × Token} (known : paren ∈ parens) (member : paren.1 ∈ chars) :
    token = paren.2 := by
  rcases spelt with listed | ⟨v, rfl, rfl⟩
  · have table : ∀ paren ∈ parens, ∀ spelling ∈ spellings,
        paren.1 ∈ spelling.chars → spelling.token = paren.2 := by
      decide
    exact table _ known _ listed member
  · have signs : ∀ paren ∈ parens, paren.1.toNat < 97 := by decide
    have small := signs _ known
    rw [List.mem_singleton.mp member] at small
    exact absurd small (Nat.not_lt.mpr v.toNat_name_bounds.1)

/-! ### The printed text -/

/-- The second text is the first one without a pair of parentheses that match each other. -/
def Unenclosed (text bare : String) : Prop :=
  ∃ before inside after, text.toList = before ++ '(' :: (inside ++ ')' :: after) ∧
    Balanced '(' ')' inside ∧ bare.toList = before ++ inside ++ after

section Readable

variable {style : Style} (readable : style.Readable)

include readable

/-- Parentheses are printed as they are, and in no other token. -/
theorem tells_paren {paren : Char × Token} (known : paren ∈ parens) :
    Tells style.printed paren.1 paren.2 := by
  have shown : ∀ paren ∈ parens, Text.normalize [paren.1] = [paren.1] := by decide +kernel
  refine ⟨?_, fun token member => (readable token).eq_of_mem known ?_⟩
  · simp only [parens, List.mem_cons, List.not_mem_nil, or_false] at known
    rcases known with rfl | rfl <;> rfl
  · rw [← style.normalize_printed]
    exact Text.mem_normalize (shown _ known) member

/-- **The tokens of the printed text without a matching pair** are the printed ones without it. -/
theorem exists_tokens_of_unenclosed {e : Expr} {bare : String}
    (unenclosed : Unenclosed (e.text style) bare) :
    ∃ before inside after,
      e.tokens Level.whole.strength = before ++ .opening :: (inside ++ .closing :: after) ∧
      Balanced .opening .closing inside ∧
      Text.normalize bare.toList = (before ++ inside ++ after).flatMap style.written := by
  obtain ⟨_, _, _, whole, balanced, rest⟩ := unenclosed
  rw [Expr.text, String.toList_ofList, style.render_eq_flatMap, tokens_zero] at whole
  have opens : Tells style.printed '(' .opening := tells_paren readable (List.mem_cons_self ..)
  have closes : Tells style.printed ')' .closing :=
    tells_paren readable (List.mem_cons_of_mem _ (List.mem_singleton_self _))
  obtain ⟨before, behind, tokens, rfl, later⟩ := opens.split whole
  obtain ⟨inside, after, rfl, rfl, rfl⟩ := closes.split later
  refine ⟨before, inside, after, tokens, balanced.of_flatMap opens closes, ?_⟩
  rw [rest, ← List.flatMap_append, ← List.flatMap_append, style.normalize_flatMap_printed]

/-- Without a matching pair the printed text stands for another tree. -/
theorem parse_of_unenclosed_of_readable {e : Expr} {bare : String}
    (unenclosed : Unenclosed (e.text style) bare) :
    (∃ other, parse bare = .ok other ∧ other ≠ e) ∨
      ∃ place, parse bare = .error ⟨.tooDeep, place⟩ := by
  obtain ⟨before, inside, after, printed, balanced, written⟩ :=
    exists_tokens_of_unenclosed readable unenclosed
  have taken := (derives_tokens e .whole).run 0
  rw [printed] at taken
  obtain ⟨other, sentence⟩ := sentence_iff_run.mpr (run_of_unenclosed balanced taken)
  obtain ⟨placed, found, same⟩ := tokenize_of_written readable sentence written
  refine (parse_of_sentence found (same ▸ sentence)).imp_left fun read => ⟨other, read, ?_⟩
  rintro rfl
  obtain ⟨nesting, derived⟩ := sentence
  have fewest := derived.count_opening_le
  rw [printed, List.count_append, List.count_append, List.count_append, List.count_cons_self,
    List.count_append, List.count_cons_of_ne (by decide)] at fewest
  omega

end Readable

/-- **No printed parenthesis is redundant**, in either style: the text without a pair of parentheses
that match each other is read as another tree, or found too deep. -/
theorem parse_of_unenclosed (e : Expr) {style : Style} (known : style ∈ [.keywords, .symbols])
    {bare : String} (unenclosed : Unenclosed (e.text style) bare) :
    (∃ other, parse bare = .ok other ∧ other ≠ e) ∨
      ∃ place, parse bare = .error ⟨.tooDeep, place⟩ := by
  have readable : style.Readable := by
    simp only [List.mem_cons, List.not_mem_nil, or_false] at known
    rcases known with rfl | rfl
    · exact Style.readable_keywords
    · exact Style.readable_symbols
  exact parse_of_unenclosed_of_readable readable unenclosed

/-- Without its parentheses `a and (b and c)` is grouped from the left. -/
theorem parse_a_and_b_and_c :
    let e := Expr.binary .and (.var ⟨'a', rfl⟩)
      (.binary .and (.var ⟨'b', rfl⟩) (.var ⟨'c', rfl⟩))
    let bare := "a and b and c"
    Style.keywords ∈ [Style.keywords, .symbols] ∧ Unenclosed (e.text .keywords) bare ∧
      ((∃ other, parse bare = .ok other ∧ other ≠ e) ∨
        ∃ place, parse bare = .error ⟨.tooDeep, place⟩) := by
  intro e bare
  have known : Style.keywords ∈ [Style.keywords, .symbols] := List.mem_cons_self ..
  have unenclosed : Unenclosed (e.text .keywords) bare :=
    ⟨"a and ".toList, "b and c".toList, [], by decide +kernel, by decide +kernel,
      by decide +kernel⟩
  exact ⟨known, unenclosed, parse_of_unenclosed e known unenclosed⟩

end Switching
