/-
**Words that do not run together.**

Blanks are gone before a text is cut into lexemes, so a word ends only where the longest spelling
does. For arbitrary tokens that loses them: the variables `o` and `r` side by side are a connective.
In a sentence it loses none, because of what can stand side by side there. `Expectation` follows a
sentence token by token: either an operand has to come next, or one has just ended.

* `Derives.run`: what is written at a level takes the expectation from an operand to its end;
* `leadingSpelling_of_mem`, `leadingSpelling_name`: what may follow a spelling or a variable;
* `Spells`: the ways to write a token;
* `carries_lexemesFrom`: words that meet the expectations are cut at their ends.
-/

import Switching.Proofs.Reading.Readers

namespace Switching

/-! ### What may come next -/

/-- What a sentence asks for behind some of its tokens. -/
structure Expectation where
  /-- Whether an operand has to come next; otherwise one has just ended. -/
  operand : Bool
  /-- The number of parentheses that are open. -/
  opened : Nat
deriving DecidableEq

namespace Expectation

/-- The expectation behind one more token, if it may come next. -/
def step : Expectation → Token → Option Expectation
  | ⟨true, opened⟩, .var _ => some ⟨false, opened⟩
  | ⟨true, opened⟩, .const _ => some ⟨false, opened⟩
  | ⟨true, opened⟩, .not => some ⟨true, opened⟩
  | ⟨true, opened⟩, .opening => some ⟨true, opened + 1⟩
  | ⟨false, opened⟩, .op _ => some ⟨true, opened⟩
  | ⟨false, opened + 1⟩, .closing => some ⟨false, opened⟩
  | _, _ => none

/-- The expectation behind several tokens. -/
def run (expected : Expectation) (tokens : List Token) : Option Expectation :=
  tokens.foldlM step expected

theorem run_cons (expected : Expectation) (token : Token) (tokens : List Token) :
    expected.run (token :: tokens) = (expected.step token).bind fun next => next.run tokens :=
  List.foldlM_cons

theorem run_append (expected : Expectation) (first second : List Token) :
    expected.run (first ++ second) = (expected.run first).bind fun next => next.run second :=
  List.foldlM_append

/-- Where an operand has just ended, a connective or a closing parenthesis comes next. -/
theorem step_false {opened : Nat} {token : Token} {next : Expectation}
    (taken : step ⟨false, opened⟩ token = some next) :
    (∃ op, token = .op op) ∨ token = .closing := by
  cases token with
  | op connective => exact .inl ⟨connective, rfl⟩
  | closing => exact .inr rfl
  | var _ => cases opened <;> cases taken
  | const _ => cases opened <;> cases taken
  | not => cases opened <;> cases taken
  | opening => cases opened <;> cases taken

/-- Where an operand has to come next, no connective does. -/
theorem step_true {opened : Nat} {token : Token} {next : Expectation}
    (taken : step ⟨true, opened⟩ token = some next) (op : Connective) : token ≠ .op op := by
  rintro rfl
  cases opened <;> cases taken

theorem step_op {expected next : Expectation} {op : Connective}
    (taken : expected.step (.op op) = some next) : next.operand = true := by
  obtain ⟨operand, opened⟩ := expected
  cases operand <;> cases opened <;> cases taken <;> rfl

theorem step_var {expected next : Expectation} {v : Variable}
    (taken : expected.step (.var v) = some next) : next.operand = false := by
  obtain ⟨operand, opened⟩ := expected
  cases operand <;> cases opened <;> cases taken <;> rfl

end Expectation

/-- **What is written at a level is one operand**, whatever parentheses are open around it. -/
theorem Derives.run {nesting : Nat} {level : Level} {tokens : List Token} {e : Expr}
    (derived : Derives nesting level tokens e) (opened : Nat) :
    Expectation.run ⟨true, opened⟩ tokens = some ⟨false, opened⟩ := by
  induction derived generalizing opened with
  | var _ v => rfl
  | const _ value => rfl
  | not _ ih =>
    rw [Expectation.run_cons]
    exact ih opened
  | enclosed _ ih =>
    rw [Expectation.run_cons]
    show Expectation.run ⟨true, opened + 1⟩ _ = _
    rw [Expectation.run_append, ih]
    rfl
  | single _ ih => exact ih opened
  | join _ _ left right =>
    rw [Expectation.run_append, left]
    show Expectation.run ⟨false, opened⟩ _ = _
    rw [Expectation.run_cons]
    exact right opened

/-! ### Single words -/

/-- The ways to write a token: the spellings of the table, and the name of a variable. -/
def Spells (token : Token) (chars : List Char) : Prop :=
  ⟨chars, token⟩ ∈ spellings ∨ ∃ v, token = .var v ∧ chars = [v.name]

/-- **A spelling of the table is found in front of anything that does not lengthen it**: no sign may
follow a connective that doubles it. -/
theorem leadingSpelling_of_mem {spelling : Spelling} (member : spelling ∈ spellings)
    {rest : List Char}
    (apart : ∀ op, spelling.token = .op op → ∀ c ∈ rest.head?, c ≠ '&' ∧ c ≠ '|') :
    leadingSpelling (spelling.chars ++ rest) = some spelling := by
  have alone (op : Connective) (sign : Char) (same : spelling.token = .op op)
      (doubled : sign = '&' ∨ sign = '|') : [sign].isPrefixOf rest = false := by
    cases rest with
    | nil => rfl
    | cons c others =>
      obtain ⟨notAnd, notOr⟩ := apart op same c rfl
      rcases doubled with rfl | rfl
      · simp [List.isPrefixOf, Ne.symm notAnd]
      · simp [List.isPrefixOf, Ne.symm notOr]
  simp only [spellings, List.mem_cons, List.not_mem_nil, or_false] at member
  -- Only the two single signs start a longer spelling; the others are found whatever follows.
  rcases member with rfl | rfl | rfl | rfl | rfl | rfl | rfl | rfl | rfl | rfl | rfl | rfl | rfl |
    rfl | rfl | rfl | rfl | rfl <;> try rfl
  · have single := alone .and '&' rfl (.inl rfl)
    simp [leadingSpelling, spellings, single]
  · have single := alone .or '|' rfl (.inr rfl)
    simp [leadingSpelling, spellings, single]

/-- What follows the first letter in a word of the language. -/
def wordEndings : List (List Char) := [['n', 'd'], ['o', 't'], ['r']]

/-- Only the words of the language start with a small letter. -/
theorem tail_mem_wordEndings : ∀ spelling ∈ spellings,
    spelling.chars.head?.all (fun c => !c.isLower) ∨ spelling.chars.tail ∈ wordEndings := by
  decide

/-- **The name of a variable starts no spelling** in front of anything but the ending of a word. -/
theorem leadingSpelling_name (v : Variable) {rest : List Char}
    (apart : ∀ ending ∈ wordEndings, ¬ ending <+: rest) :
    leadingSpelling (v.name :: rest) = none := by
  unfold leadingSpelling
  rw [List.find?_eq_none]
  intro spelling member starts
  obtain ⟨c, others, chars⟩ := List.exists_cons_of_ne_nil (chars_ne_nil_of_mem member)
  have which := tail_mem_wordEndings spelling member
  rw [chars, List.isPrefixOf_iff_prefix, List.cons_prefix_cons] at starts
  obtain ⟨rfl, behind⟩ := starts
  rw [chars] at which
  rcases which with large | ending
  · simp [v.small] at large
  · exact apart others ending behind

namespace Spells

variable {token : Token} {chars : List Char}

/-- No way to write anything but a connective starts with a sign that can be doubled. -/
theorem head_ne (spelt : Spells token chars) (other : ∀ op, token ≠ .op op) (more : List Char) :
    ∀ c ∈ (chars ++ more).head?, c ≠ '&' ∧ c ≠ '|' := by
  rcases spelt with member | ⟨v, rfl, rfl⟩
  · have table : ∀ spelling ∈ spellings, (∀ op, spelling.token ≠ .op op) →
        ∀ c ∈ (spelling.chars ++ more).head?, c ≠ '&' ∧ c ≠ '|' := by
      simp [spellings]
    exact table _ member other
  · intro c here
    cases here
    have small := v.small
    constructor
    · rintro same
      rw [same] at small
      cases small
    · rintro same
      rw [same] at small
      cases small

/-- No way to write a connective or a closing parenthesis starts with the ending of a word. -/
theorem not_ending (spelt : Spells token chars) (behind : (∃ op, token = .op op) ∨ token = .closing)
    (more : List Char) : ∀ ending ∈ wordEndings, ¬ ending <+: chars ++ more := by
  rcases spelt with member | ⟨v, rfl, rfl⟩
  · have table : ∀ spelling ∈ spellings,
        (∃ op, spelling.token = .op op) ∨ spelling.token = .closing →
        ∀ ending ∈ wordEndings, ¬ ending <+: spelling.chars ++ more := by
      simp [spellings, wordEndings]
    exact table _ member behind
  · rcases behind with ⟨op, same⟩ | same <;> cases same

end Spells

/-! ### Words one after another -/

theorem lexemesFrom_spelling {spelling : Spelling} {rest : List Char}
    (leading : leadingSpelling (spelling.chars ++ rest) = some spelling) (start : Nat) :
    lexemesFrom start (spelling.chars ++ rest) =
      ⟨start, spelling.chars, .token spelling.token⟩ ::
        lexemesFrom (start + Text.byteLength spelling.chars) rest := by
  obtain ⟨c, others, chars⟩ :=
    List.exists_cons_of_ne_nil (isPrefix_of_leadingSpelling leading).2
  rw [chars, List.cons_append] at leading ⊢
  rw [lexemesFrom, leading]
  simp [chars]

theorem lexemesFrom_alone {c : Char} {rest : List Char}
    (alone : leadingSpelling (c :: rest) = none) (start : Nat) :
    lexemesFrom start (c :: rest) =
      ⟨start, [c], .ofChar c⟩ :: lexemesFrom (start + c.utf8Size) rest := by
  rw [lexemesFrom, alone]

theorem lexemesFrom_name {v : Variable} {rest : List Char}
    (leading : leadingSpelling (v.name :: rest) = none) (start : Nat) :
    lexemesFrom start (v.name :: rest) =
      ⟨start, [v.name], .token (.var v)⟩ :: lexemesFrom (start + v.name.utf8Size) rest := by
  rw [lexemesFrom_alone leading]
  simp [Reading.ofChar, v.isAlpha_name]

section Words

variable {words : List (Token × List Char)} (spelt : ∀ word ∈ words, Spells word.1 word.2)

include spelt

/-- What is written where an operand has to come starts with no sign that can be doubled. -/
theorem head_ne_of_run {opened : Nat}
    (meets : (Expectation.run ⟨true, opened⟩ (words.map Prod.fst)).isSome = true) :
    ∀ c ∈ (words.flatMap Prod.snd).head?, c ≠ '&' ∧ c ≠ '|' := by
  cases words with
  | nil =>
    intro c here
    cases here
  | cons word others =>
    obtain ⟨reached, runs⟩ := Option.isSome_iff_exists.mp meets
    rw [List.map_cons, Expectation.run_cons] at runs
    obtain ⟨next, taken, _⟩ := Option.bind_eq_some_iff.mp runs
    rw [List.flatMap_cons]
    exact (spelt word (List.mem_cons_self ..)).head_ne (Expectation.step_true taken) _

/-- What is written where an operand has just ended starts with no ending of a word. -/
theorem not_ending_of_run {opened : Nat}
    (meets : (Expectation.run ⟨false, opened⟩ (words.map Prod.fst)).isSome = true) :
    ∀ ending ∈ wordEndings, ¬ ending <+: words.flatMap Prod.snd := by
  cases words with
  | nil =>
    rw [List.flatMap_nil]
    decide
  | cons word others =>
    obtain ⟨reached, runs⟩ := Option.isSome_iff_exists.mp meets
    rw [List.map_cons, Expectation.run_cons] at runs
    obtain ⟨next, taken, _⟩ := Option.bind_eq_some_iff.mp runs
    rw [List.flatMap_cons]
    exact (spelt word (List.mem_cons_self ..)).not_ending (Expectation.step_false taken) _

/-- **Words that meet the expectations are cut at their ends**, although nothing separates them. -/
theorem carries_lexemesFrom {expected : Expectation}
    (meets : (expected.run (words.map Prod.fst)).isSome = true) (start : Nat) :
    Carries (lexemesFrom start (words.flatMap Prod.snd)) (words.map Prod.fst) := by
  induction words generalizing expected start with
  | nil =>
    show Carries (lexemesFrom start []) []
    rw [lexemesFrom]
    exact carries_nil_iff.mpr rfl
  | cons word others ih =>
    obtain ⟨token, chars⟩ := word
    obtain ⟨reached, runs⟩ := Option.isSome_iff_exists.mp meets
    rw [List.map_cons, Expectation.run_cons] at runs
    obtain ⟨⟨operand, opened⟩, taken, runs⟩ := Option.bind_eq_some_iff.mp runs
    have meets := Option.isSome_iff_exists.mpr ⟨reached, runs⟩
    have spelt' : ∀ word ∈ others, Spells word.1 word.2 := fun word member =>
      spelt word (List.mem_cons_of_mem _ member)
    rw [List.map_cons, List.flatMap_cons]
    rcases spelt _ (List.mem_cons_self ..) with member | ⟨v, same, name⟩
    · have apart : ∀ op, token = .op op → ∀ c ∈ (others.flatMap Prod.snd).head?,
          c ≠ '&' ∧ c ≠ '|' := by
        rintro op rfl
        obtain rfl : operand = true := Expectation.step_op taken
        exact head_ne_of_run spelt' meets
      rw [lexemesFrom_spelling (leadingSpelling_of_mem member apart)]
      exact carries_cons_iff.mpr ⟨_, _, _, rfl, ih spelt' meets _⟩
    · simp only at same name
      subst same name
      obtain rfl : operand = false := Expectation.step_var taken
      have apart := not_ending_of_run spelt' meets
      rw [List.singleton_append, lexemesFrom_name (leadingSpelling_name v apart)]
      exact carries_cons_iff.mpr ⟨_, _, _, rfl, ih spelt' meets _⟩

end Words

end Switching
