/-
**Ways of writing a sentence.**

A sentence can be written in many ways. Every operator has several words or signs, a letter may be
small or capital, and blanks may stand anywhere, in a word as well as between two; none are needed
between neighbours. Such a text is brought to small letters without blanks before it is cut, and what
is left is a word for each token. `carries_lexemesFrom` finds their ends again, for as long as the
tokens begin a sentence; for other tokens words can run together.

* `Token.ways`, `mem_ways_iff`: the ways to write a token are its spellings;
* `lowercase_of_toLower`, `flatMap_lowercase_of_ways`: a word in letters of either case is brought to
  small letters one by one;
* `Writes.normalize_eq`: what is left of a text that writes tokens out;
* `Writes.carries`: the lexemes of a text that writes a viable list out carry it;
* `tokenize_of_writes`, `parse_of_writes`: every way of writing a sentence gives its tokens and tree.
-/

import Mathlib.Data.List.Basic
import Switching.Proofs.Reading.Sentences
import Switching.Proofs.Reading.Viability

namespace Switching

/-! ### Words -/

/-- The ways to write a token in small letters and without blanks. -/
def Token.ways : Token → List (List Char)
  | .op .and => [['a', 'n', 'd'], ['&', '&'], ['&'], ['∧']]
  | .op .or => [['o', 'r'], ['|', '|'], ['|'], ['∨']]
  | .op .xor => [['^'], ['⊕']]
  | .not => [['n', 'o', 't'], ['!'], ['~'], ['¬']]
  | .var v => [[v.name]]
  | .const value => [[Text.digit value]]
  | .opening => [['(']]
  | .closing => [[')']]

/-- The ways to write a token are the spellings of the table, and the name of a variable. -/
theorem mem_ways_iff {token : Token} {chars : List Char} :
    chars ∈ token.ways ↔ Spells token chars := by
  cases token with
  | op op => cases op <;> simp [Token.ways, Spells, spellings]
  | const value => cases value <;> simp [Token.ways, Spells, spellings, Text.digit]
  | var v => simp [Token.ways, Spells, spellings]
  | not => simp [Token.ways, Spells, spellings]
  | opening => simp [Token.ways, Spells, spellings]
  | closing => simp [Token.ways, Spells, spellings]

/-- Where the small letter is its own lower-case form, it is that of the capital too. -/
theorem lowercase_of_toLower {c : Char} (small : Text.lowercase c.toLower = [c.toLower]) :
    Text.lowercase c = [c.toLower] := by
  by_cases ascii : c.toNat < 0x80
  · exact Text.lowercase_of_ascii ascii
  · have notCapital : c.isUpper = false := by
      rw [← Bool.not_eq_true, Text.isUpper_iff]
      omega
    rw [Text.toLower_eq_self notCapital] at small ⊢
    exact small

/-- Lower case changes nothing in the ways to write a token. -/
theorem lowercase_of_mem_ways {token : Token} {way : List Char} (member : way ∈ token.ways) :
    ∀ c ∈ way, Text.lowercase c = [c] := by
  have table : ∀ spelling ∈ spellings,
      spelling.chars.all (fun c => Text.lowercase c = [c]) = true := by
    decide +kernel
  rcases mem_ways_iff.mp member with spelt | ⟨v, rfl, rfl⟩
  · simpa using table _ spelt
  · intro c here
    obtain rfl := List.mem_singleton.mp here
    have bounds := v.toNat_name_bounds
    rw [Text.lowercase_of_ascii (by omega), v.toLower_name]

theorem flatMap_lowercase_of_ways {token : Token} {word : List Char}
    (way : word.map Char.toLower ∈ token.ways) :
    word.flatMap Text.lowercase = word.map Char.toLower := by
  have plain : ∀ c ∈ word, Text.lowercase c = [c.toLower] := fun c member =>
    lowercase_of_toLower (lowercase_of_mem_ways way _ (List.mem_map_of_mem member))
  rw [List.map_eq_flatMap]
  exact List.flatMap_congr plain

/-! ### Texts -/

/-- A text writes tokens out if, but for its blanks, it is a word for each of them, one after the
other, in letters of either case. -/
def Writes (text : String) (tokens : List Token) : Prop :=
  ∃ words : List (Token × List Char),
    words.map Prod.fst = tokens ∧
    (∀ word ∈ words, word.2.map Char.toLower ∈ word.1.ways) ∧
    text.toList.filter (fun c => !Text.isBlank c) = words.flatMap Prod.snd

/-- **What is left of a text that writes tokens out** is a spelling for each of them. -/
theorem Writes.normalize_eq {text : String} {tokens : List Token} (writes : Writes text tokens) :
    ∃ words : List (Token × List Char), words.map Prod.fst = tokens ∧
      (∀ word ∈ words, Spells word.1 word.2) ∧
      Text.normalize text.toList = words.flatMap Prod.snd := by
  obtain ⟨words, rfl, ways, spaced⟩ := writes
  refine ⟨words.map fun word => (word.1, word.2.map Char.toLower), ?_, ?_, ?_⟩
  · rw [List.map_map]
    rfl
  · intro word member
    obtain ⟨written, here, rfl⟩ := List.mem_map.mp member
    exact mem_ways_iff.mp (ways written here)
  · unfold Text.normalize
    rw [spaced, List.flatMap_assoc, List.flatMap_map]
    exact List.flatMap_congr fun word member => flatMap_lowercase_of_ways (ways word member)

/-- **The lexemes of a text that writes a viable list out carry it.** -/
theorem Writes.carries {text : String} {tokens : List Token} (writes : Writes text tokens)
    (viable : Viable tokens) : Carries (lexemes (Text.normalize text.toList)) tokens := by
  obtain ⟨words, rfl, spelt, whole⟩ := writes.normalize_eq
  rw [whole]
  exact carries_lexemesFrom spelt (Option.isSome_iff_exists.mpr (viable_iff_run.mp viable)) 0

/-- The same for a sentence, of which something is left. -/
theorem Writes.carries_sentence {text : String} {tokens : List Token} {e : Expr}
    (writes : Writes text tokens) (sentence : Sentence tokens e) :
    Text.normalize text.toList ≠ [] ∧
      Carries (lexemes (Text.normalize text.toList)) tokens := by
  have carried := writes.carries sentence.viable
  exact ⟨normalize_ne_nil_of_carries sentence carried, carried⟩

/-- Every way of writing a sentence within the limits is read as its tree. -/
theorem parse_of_writes {tokens : List Token} {e : Expr}
    (derived : Derives maxDepth .whole tokens e) (shallow : e.depth ≤ maxDepth) {text : String}
    (writes : Writes text tokens) : parse text = .ok e := by
  obtain ⟨placed, found, rfl⟩ :=
    tokenize_eq_ok_iff.mpr (writes.carries_sentence ⟨maxDepth, derived⟩)
  exact parse_eq_ok_iff_derives.mpr ⟨placed, found, derived, shallow⟩

/-- **Every way of writing a sentence gives its tokens**, whatever word or sign is taken for each
operator, whichever letters are capitals, and wherever blanks stand. -/
theorem tokenize_of_writes {tokens : List Token} {e : Expr} (sentence : Sentence tokens e)
    {text : String} (writes : Writes text tokens) :
    ∃ placed, tokenize text = .ok placed ∧ placed.map Prod.snd = tokens :=
  tokenize_eq_ok_iff.mpr (writes.carries_sentence sentence)

/-- Blanks in words and signs, none between neighbours, and letters of both cases. -/
theorem tokenize_not_or_and :
    ∃ placed, tokenize "N oTnO R(T& &\u3000B|\t1 )" = .ok placed ∧
      placed.map Prod.snd =
        [.not, .var ⟨'n', by decide⟩, .op .or, .opening, .var ⟨'t', by decide⟩, .op .and,
          .var ⟨'b', by decide⟩, .op .or, .const true, .closing] := by
  obtain ⟨e, sentence⟩ := sentence_iff_run.mpr (show Expectation.run ⟨true, 0⟩
    [.not, .var ⟨'n', by decide⟩, .op .or, .opening, .var ⟨'t', by decide⟩, .op .and,
      .var ⟨'b', by decide⟩, .op .or, .const true, .closing] = some ⟨false, 0⟩ from rfl)
  refine tokenize_of_writes sentence
    ⟨[(.not, ['N', 'o', 'T']), (.var ⟨'n', by decide⟩, ['n']), (.op .or, ['O', 'R']),
      (.opening, ['(']), (.var ⟨'t', by decide⟩, ['T']), (.op .and, ['&', '&']),
      (.var ⟨'b', by decide⟩, ['B']), (.op .or, ['|']), (.const true, ['1']),
      (.closing, [')'])], rfl, ?_, ?_⟩
  · decide
  · decide +kernel

/-- Two variables side by side are no sentence, and here they are lost. -/
example : tokenize "o r" = .ok [(0, .op .or)] := by decide +kernel

end Switching
