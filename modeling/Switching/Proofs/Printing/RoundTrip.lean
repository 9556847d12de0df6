/-
**Printing, then reading.**

An expression printed in either style is read back as the same tree, unless it is deeper than the
reader allows. Blanks do not survive normalization, so the words of the printed text are only told
apart by what a sentence lets stand side by side.

* `Style.readable_keywords`, `Style.readable_symbols`: both styles write tokens of the language;
* `tokenize_of_written`, `tokenize_text`: the tokens of what is written and of what is printed;
* `parse_text_of_le`, `parse_text_of_lt`: the printed text read within the limit and beyond it;
* `parse_text`: the round trip in both styles.
-/

import Switching.Proofs.Printing.Tokens
import Switching.Proofs.Reading.Sentences
import Switching.Proofs.Reading.Words

namespace Switching

/-! ### The two styles -/

/-- Every token is written in one of the ways that the reader knows. -/
def Style.Readable (style : Style) : Prop := ∀ token, Spells token (style.written token)

theorem Style.readable_of_operators {style : Style}
    (negation : ⟨Text.normalize style.negation, .not⟩ ∈ spellings)
    (connective : ∀ op, ⟨Text.normalize (style.connective op), .op op⟩ ∈ spellings) :
    style.Readable := by
  intro token
  cases token with
  | var v => exact .inr ⟨v, rfl, rfl⟩
  | const value => cases value <;> exact .inl (by simp [spellings, written, Text.digit])
  | op op => exact .inl (connective op)
  | not => exact .inl negation
  | opening => exact .inl (by simp [spellings, written])
  | closing => exact .inl (by simp [spellings, written])

theorem Style.readable_keywords : Style.keywords.Readable := by
  refine readable_of_operators ?_ fun op => ?_
  · have plain : Text.normalize keywords.negation = ['n', 'o', 't'] := by decide
    simp [plain, spellings]
  · cases op with
    | and =>
      have plain : Text.normalize (keywords.connective .and) = ['a', 'n', 'd'] := by decide
      simp [plain, spellings]
    | or =>
      have plain : Text.normalize (keywords.connective .or) = ['o', 'r'] := by decide
      simp [plain, spellings]
    | xor =>
      have plain : Text.normalize (keywords.connective .xor) = ['^'] := by decide
      simp [plain, spellings]

theorem Style.readable_symbols : Style.symbols.Readable := by
  refine readable_of_operators ?_ fun op => ?_
  · have plain : Text.normalize symbols.negation = ['¬'] := by decide +kernel
    simp [plain, spellings]
  · cases op with
    | and =>
      have plain : Text.normalize (symbols.connective .and) = ['∧'] := by decide +kernel
      simp [plain, spellings]
    | or =>
      have plain : Text.normalize (symbols.connective .or) = ['∨'] := by decide +kernel
      simp [plain, spellings]
    | xor =>
      have plain : Text.normalize (symbols.connective .xor) = ['⊕'] := by decide +kernel
      simp [plain, spellings]

/-! ### The printed text -/

section Readable

variable {style : Style} (readable : style.Readable)

include readable

/-- Tokens that meet the expectations are told apart where they are written without blanks. -/
theorem carries_written {expected : Expectation} {tokens : List Token}
    (meets : (expected.run tokens).isSome = true) :
    Carries (lexemes (tokens.flatMap style.written)) tokens := by
  have spelt : ∀ word ∈ tokens.map fun token => (token, style.written token),
      Spells word.1 word.2 := by
    intro word member
    obtain ⟨token, _, rfl⟩ := List.mem_map.mp member
    exact readable token
  have firsts : (tokens.map fun token => (token, style.written token)).map Prod.fst = tokens := by
    rw [List.map_map]
    exact List.map_id _
  have seconds : (tokens.map fun token => (token, style.written token)).flatMap Prod.snd =
      tokens.flatMap style.written := List.flatMap_map ..
  rw [← firsts] at meets
  have carried := carries_lexemesFrom spelt meets 0
  rw [firsts, seconds] at carried
  exact carried

/-- **A sentence that is written token after token has these tokens.** -/
theorem tokenize_of_written {tokens : List Token} {e : Expr} (sentence : Sentence tokens e)
    {text : String} (written : Text.normalize text.toList = tokens.flatMap style.written) :
    ∃ placed, tokenize text = .ok placed ∧ placed.map Prod.snd = tokens := by
  obtain ⟨nesting, derived⟩ := sentence
  have carried := carries_written readable (Option.isSome_iff_exists.mpr ⟨_, derived.run 0⟩)
  rw [← written] at carried
  exact tokenize_eq_ok_iff.mpr ⟨normalize_ne_nil_of_carries ⟨nesting, derived⟩ carried, carried⟩

/-- The tokens of the printed text are the printed tokens. -/
theorem tokenize_text (e : Expr) :
    ∃ placed, tokenize (e.text style) = .ok placed ∧
      placed.map Prod.snd = e.tokens Level.whole.strength := by
  refine tokenize_of_written readable ⟨_, derives_tokens e .whole⟩ ?_
  rw [Expr.text, String.toList_ofList, style.render_eq_flatMap, style.normalize_flatMap_printed,
    tokens_zero]

/-- The printed text is a sentence whose nesting is at most the depth of the tree. -/
theorem derives_text (e : Expr) :
    ∃ placed, tokenize (e.text style) = .ok placed ∧
      Derives e.depth .whole (placed.map Prod.snd) e := by
  obtain ⟨placed, found, same⟩ := tokenize_text readable e
  exact ⟨placed, found, same ▸ derives_tokens e .whole⟩

/-- Within the limit the tree is read back: the other limit, on nesting, is kept with it. -/
theorem parse_text_of_le {e : Expr} (shallow : e.depth ≤ maxDepth) :
    parse (e.text style) = .ok e := by
  obtain ⟨placed, found, derived⟩ := derives_text readable e
  exact parse_eq_ok_iff_derives.mpr ⟨placed, found, derived.mono shallow, shallow⟩

/-- Beyond the limit the text is a sentence still, but no tree is read. -/
theorem parse_text_of_lt {e : Expr} (deep : maxDepth < e.depth) :
    ∃ place, parse (e.text style) = .error ⟨.tooDeep, place⟩ := by
  obtain ⟨placed, found, derived⟩ := derives_text readable e
  rcases parse_of_sentence found ⟨_, derived⟩ with read | failed
  · obtain ⟨_, _, _, shallow⟩ := parse_eq_ok_iff_derives.mp read
    exact absurd deep (Nat.not_lt.mpr shallow)
  · exact failed

end Readable

/-- **Printing, then reading**, gives the same tree in both styles up to the limit on the depth, and
beyond it finds it too deep. The limit on nesting has no part in this: the printed text is a
sentence with no more nesting than the tree has depth. -/
theorem parse_text (e : Expr) :
    (e.depth ≤ 256 →
      parse (e.text .keywords) = .ok e ∧ parse (e.text .symbols) = .ok e) ∧
    (256 < e.depth →
      (∃ place, parse (e.text .keywords) = .error ⟨.tooDeep, place⟩) ∧
        ∃ place, parse (e.text .symbols) = .error ⟨.tooDeep, place⟩) ∧
    (∃ placed, tokenize (e.text .keywords) = .ok placed ∧
      Derives e.depth .whole (placed.map Prod.snd) e) ∧
    ∃ placed, tokenize (e.text .symbols) = .ok placed ∧
      Derives e.depth .whole (placed.map Prod.snd) e := by
  have words := Style.readable_keywords
  have signs := Style.readable_symbols
  refine ⟨?_, ?_, derives_text words e, derives_text signs e⟩
  · intro shallow
    exact ⟨parse_text_of_le words shallow, parse_text_of_le signs shallow⟩
  · intro deep
    exact ⟨parse_text_of_lt words deep, parse_text_of_lt signs deep⟩

end Switching
