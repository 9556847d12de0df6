/-
**The accepted language.**

A text is read exactly if its tokens are a sentence of the grammar that keeps both limits, and then
the tree is the one that the sentence stands for. A sentence that breaks a limit is refused for
being too deep, and for nothing else.

* `tokenize_eq_ok_iff`: which texts have which tokens;
* `derives_of_whole`, `Derives.whole_eq`: what is read whole is a sentence within the limits, and what
  becomes of a sentence that is read whole;
* `parse_eq_ok_iff_derives`, `parse_of_sentence`: the same for texts;
* `accepts_sentences_within_limits`: the language, its limits and its trees.
-/

import Switching.Proofs.Reading.Completeness
import Switching.Proofs.Reading.Soundness

namespace Switching

open Switching.Parser

/-! ### Texts and their lexemes -/

/-- A text has tokens exactly if it is not blank and its lexemes carry them. -/
theorem tokenize_eq_ok_iff {text : String} {tokens : List Token} :
    (∃ placed, tokenize text = .ok placed ∧ placed.map Prod.snd = tokens) ↔
      Text.normalize text.toList ≠ [] ∧
        Carries (lexemes (Text.normalize text.toList)) tokens := by
  rw [carries_iff_placedTokens]
  unfold tokenize
  split
  · rename_i blank
    simp [blank]
  · rename_i inked
    exact (and_iff_right inked).symm

/-- A text whose lexemes carry a sentence is not blank. -/
theorem normalize_ne_nil_of_carries {text : String} {tokens : List Token} {e : Expr}
    (sentence : Sentence tokens e)
    (carried : Carries (lexemes (Text.normalize text.toList)) tokens) :
    Text.normalize text.toList ≠ [] := by
  intro blank
  obtain ⟨nesting, derived⟩ := sentence
  rw [blank, lexemes, lexemesFrom] at carried
  exact derived.ne_nil (carried.unique (carries_nil_iff.mpr rfl))

theorem parse_of_normalize_ne_nil {text : String} (inked : Text.normalize text.toList ≠ []) :
    parse text = whole maxDepth (Text.byteLength (Text.normalize text.toList))
      (lexemes (Text.normalize text.toList)) := by
  unfold parse parseNormalized
  rw [if_neg inked]

/-! ### Lexemes that are read whole -/

theorem Parser.complete_eq_ok {found : Parsed} {e : Expr} (ends : complete found = .ok e) :
    found.rest = [] ∧ found.expr = e := by
  unfold complete at ends
  split at ends
  · rename_i nothing
    cases ends
    exact ⟨nothing, rfl⟩
  · cases ends
  · cases ends
  · cases ends

/-- **What is read whole is a sentence within the limits.** -/
theorem derives_of_whole {limit finish : Nat} {pieces : List Lexeme} {e : Expr}
    (read : whole limit finish pieces = .ok e) :
    ∃ tokens, Carries pieces tokens ∧ Derives limit .whole tokens e ∧ e.depth ≤ limit := by
  unfold whole at read
  split at read
  · cases read
  · rename_i found ends
    obtain ⟨nothing, rfl⟩ := complete_eq_ok read
    obtain ⟨used, tokens, all, carried, derived, same, shallow⟩ :=
      readerAt_takes (unary_takes limit finish limit) .whole pieces found ends
    rw [nothing, List.append_nil] at all
    subst all
    exact ⟨tokens, carried, derived, same ▸ shallow⟩

/-- **A sentence that is read whole** gives its tree, or breaks a limit and is found too deep. -/
theorem Derives.whole_eq {nesting : Nat} {tokens : List Token} {e : Expr}
    (derived : Derives nesting .whole tokens e) (limit finish : Nat) {pieces : List Lexeme}
    (carried : Carries pieces tokens) :
    whole limit finish pieces = .ok e ∨
      ¬ (nesting ≤ limit ∧ e.depth ≤ limit) ∧
        ∃ place, whole limit finish pieces = .error ⟨.tooDeep, place⟩ := by
  have arrives := derived.arrives_stop limit finish limit carried (stops_nil .whole)
  rw [List.append_nil] at arrives
  replace arrives : Arrives (nesting ≤ limit ∧ e.depth ≤ limit) (.ok ⟨e, e.depth, []⟩)
    (expression limit (unary limit finish limit) pieces) := arrives
  unfold whole
  rcases arrives with read | ⟨exceeded, place, failed⟩
  · left
    rw [read]
    rfl
  · right
    rw [failed]
    exact ⟨exceeded, place, rfl⟩

/-! ### Texts that are read -/

/-- A text is read exactly if its tokens derive the tree within the limits. -/
theorem parse_eq_ok_iff_derives {text : String} {e : Expr} :
    parse text = .ok e ↔
      ∃ placed, tokenize text = .ok placed ∧
        Derives maxDepth .whole (placed.map Prod.snd) e ∧ e.depth ≤ maxDepth := by
  constructor
  · intro read
    have inked : Text.normalize text.toList ≠ [] := by
      intro blank
      unfold parse parseNormalized at read
      rw [if_pos blank] at read
      cases read
    rw [parse_of_normalize_ne_nil inked] at read
    obtain ⟨tokens, carried, derived, shallow⟩ := derives_of_whole read
    obtain ⟨placed, found, rfl⟩ := tokenize_eq_ok_iff.mpr ⟨inked, carried⟩
    exact ⟨placed, found, derived, shallow⟩
  · rintro ⟨placed, found, derived, shallow⟩
    obtain ⟨inked, carried⟩ := tokenize_eq_ok_iff.mp ⟨placed, found, rfl⟩
    rw [parse_of_normalize_ne_nil inked]
    rcases derived.whole_eq maxDepth _ carried with read | ⟨exceeded, _⟩
    · exact read
    · exact absurd ⟨Nat.le_refl _, shallow⟩ exceeded

/-- A text whose tokens are a sentence is read as its tree, or found too deep. -/
theorem parse_of_sentence {text : String} {placed : List (Nat × Token)} {e : Expr}
    (found : tokenize text = .ok placed) (sentence : Sentence (placed.map Prod.snd) e) :
    parse text = .ok e ∨ ∃ place, parse text = .error ⟨.tooDeep, place⟩ := by
  obtain ⟨nesting, derived⟩ := sentence
  obtain ⟨inked, carried⟩ := tokenize_eq_ok_iff.mp ⟨placed, found, rfl⟩
  rw [parse_of_normalize_ne_nil inked]
  exact (derived.whole_eq maxDepth _ carried).imp_right And.right

/-- **The accepted language.** Exactly the texts are read whose tokens derive a tree with no place
inside more than 256 parentheses and negations, and whose tree is no deeper than that; a
sentence stands for one tree; and a sentence that breaks a limit is found too deep. -/
theorem accepts_sentences_within_limits (text : String) :
    (∀ e, parse text = .ok e ↔
      ∃ placed, tokenize text = .ok placed ∧
        Derives 256 .whole (placed.map Prod.snd) e ∧ e.depth ≤ 256) ∧
    (∀ tokens first second, Sentence tokens first → Sentence tokens second → first = second) ∧
    (∀ placed e, tokenize text = .ok placed → Sentence (placed.map Prod.snd) e →
      ¬ (Derives 256 .whole (placed.map Prod.snd) e ∧ e.depth ≤ 256) →
      ∃ place, parse text = .error ⟨.tooDeep, place⟩) := by
  refine ⟨fun e => parse_eq_ok_iff_derives, ?_, ?_⟩
  · rintro tokens first second ⟨nesting, one⟩ ⟨other, two⟩
    exact one.unique two
  · intro placed e found sentence broken
    rcases parse_of_sentence found sentence with read | deep
    · obtain ⟨same, again, derived, shallow⟩ := parse_eq_ok_iff_derives.mp read
      rw [found] at again
      cases again
      exact absurd ⟨derived, shallow⟩ broken
    · exact deep

end Switching
