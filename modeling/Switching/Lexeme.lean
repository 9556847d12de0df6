/-
**Lexemes.**

A text is cut into lexemes from left to right. At each place the longest spelling of the table that
starts there is taken; where none does, a letter is a variable, and every other character is unknown
and stands alone. Nothing is skipped, so the lexemes tile the text.

* `flatMap_spelling_lexemes`: the spellings of the lexemes, put together, are the text;
* `start_of_lexemes`: a lexeme starts at the byte that the spellings before it end at;
* `placedTokens_eq_ok_iff`: lexemes have tokens exactly when none of them is unknown;
* `placedTokens_eq_error_iff`: otherwise the first unknown character is the error.
-/

import Switching.Error
import Switching.Text.Normalized

namespace Switching

/-! ### Spellings -/

/-- A way to write a token other than a variable. -/
structure Spelling where
  chars : List Char
  token : Token

/-- The spellings of the language. Where one starts another, the longer comes first. -/
def spellings : List Spelling :=
  [⟨['a', 'n', 'd'], .op .and⟩, ⟨['n', 'o', 't'], .not⟩, ⟨['o', 'r'], .op .or⟩,
   ⟨['&', '&'], .op .and⟩, ⟨['|', '|'], .op .or⟩,
   ⟨['&'], .op .and⟩, ⟨['|'], .op .or⟩, ⟨['!'], .not⟩, ⟨['~'], .not⟩, ⟨['^'], .op .xor⟩,
   ⟨['∧'], .op .and⟩, ⟨['∨'], .op .or⟩, ⟨['¬'], .not⟩, ⟨['⊕'], .op .xor⟩,
   ⟨['('], .opening⟩, ⟨[')'], .closing⟩, ⟨['0'], .const false⟩, ⟨['1'], .const true⟩]

/-- The first spelling of the table that starts the text. -/
def leadingSpelling (text : List Char) : Option Spelling :=
  spellings.find? fun spelling => spelling.chars.isPrefixOf text

theorem chars_ne_nil_of_mem {spelling : Spelling} (member : spelling ∈ spellings) :
    spelling.chars ≠ [] := by
  revert spelling
  decide

/-- A leading spelling starts the text and is not empty. -/
theorem isPrefix_of_leadingSpelling {text : List Char} {spelling : Spelling}
    (leading : leadingSpelling text = some spelling) :
    spelling.chars <+: text ∧ spelling.chars ≠ [] := by
  unfold leadingSpelling at leading
  have starts := List.find?_some leading
  exact ⟨List.isPrefixOf_iff_prefix.mp starts,
    chars_ne_nil_of_mem (List.mem_of_find?_eq_some leading)⟩

/-! ### Cutting a text -/

/-- What a lexeme is: a token, or a character that starts none. -/
inductive Reading where
  | token (token : Token)
  | unknown (c : Char)
deriving DecidableEq

/-- A piece of a text. -/
structure Lexeme where
  /-- The byte offset at which it starts. -/
  start : Nat
  spelling : List Char
  reading : Reading
deriving DecidableEq

/-- A character at which no spelling starts. -/
def Reading.ofChar (c : Char) : Reading :=
  if letter : c.isAlpha = true then .token (.var (Variable.ofLetter c letter)) else .unknown c

/-- The lexemes of a text that starts at byte `start`. -/
def lexemesFrom (start : Nat) : List Char → List Lexeme
  | [] => []
  | c :: rest =>
    match leadingSpelling (c :: rest) with
    | some spelling =>
      ⟨start, spelling.chars, .token spelling.token⟩ ::
        lexemesFrom (start + Text.byteLength spelling.chars)
          (rest.drop (spelling.chars.length - 1))
    | none => ⟨start, [c], .ofChar c⟩ :: lexemesFrom (start + c.utf8Size) rest
termination_by text => text.length
decreasing_by
  · simp only [List.length_drop, List.length_cons]
    omega
  · simp

/-- The lexemes of a text. -/
def lexemes (text : List Char) : List Lexeme := lexemesFrom 0 text

/-- The tokens of a list of lexemes with their positions, up to the first unknown character. -/
def placedTokens : List Lexeme → Except ParseError (List (Nat × Token))
  | [] => .ok []
  | ⟨start, _, .token token⟩ :: rest =>
    match placedTokens rest with
    | .ok tokens => .ok ((start, token) :: tokens)
    | .error e => .error e
  | ⟨start, _, .unknown c⟩ :: _ => .error ⟨.unexpectedChar c, start⟩

/-- The tokens of a text, after normalization, with their positions. -/
def tokenize (text : String) : Except ParseError (List (Nat × Token)) :=
  match Text.normalize text.toList with
  | [] => .error ⟨.empty, 0⟩
  | normalized => placedTokens (lexemes normalized)

/-! ### Laws -/

/-- The spellings of the lexemes, put together, are the text. -/
theorem flatMap_spelling_lexemesFrom (start : Nat) (text : List Char) :
    (lexemesFrom start text).flatMap (·.spelling) = text := by
  fun_induction lexemesFrom start text with
  | case1 => rfl
  | case2 start c rest spelling leading ih =>
    obtain ⟨starts, nonempty⟩ := isPrefix_of_leadingSpelling leading
    obtain ⟨tail, whole⟩ := starts
    obtain ⟨first, others, chars⟩ := List.exists_cons_of_ne_nil nonempty
    rw [List.flatMap_cons, ih, chars]
    rw [chars, List.cons_append, List.cons.injEq] at whole
    obtain ⟨rfl, rfl⟩ := whole
    simp
  | case3 start c rest leading ih => simp [ih]

theorem flatMap_spelling_lexemes (text : List Char) :
    (lexemes text).flatMap (·.spelling) = text :=
  flatMap_spelling_lexemesFrom 0 text

theorem start_of_lexemesFrom {start : Nat} {text : List Char} {front after : List Lexeme}
    {piece : Lexeme} (split : lexemesFrom start text = front ++ piece :: after) :
    piece.start = start + Text.byteLength (front.flatMap (·.spelling)) := by
  fun_induction lexemesFrom start text generalizing front with
  | case1 => simp at split
  | case2 start c rest spelling leading ih =>
    cases front with
    | nil =>
      cases split
      rfl
    | cons first others =>
      rw [List.cons_append, List.cons.injEq] at split
      obtain ⟨rfl, later⟩ := split
      rw [ih later, List.flatMap_cons, Text.byteLength_append, Nat.add_assoc]
  | case3 start c rest leading ih =>
    cases front with
    | nil =>
      cases split
      rfl
    | cons first others =>
      rw [List.cons_append, List.cons.injEq] at split
      obtain ⟨rfl, later⟩ := split
      rw [ih later, List.flatMap_cons, Text.byteLength_append, Nat.add_assoc]
      rfl

/-- A lexeme starts at the byte that the spellings before it end at. -/
theorem start_of_lexemes {text : List Char} {front after : List Lexeme} {piece : Lexeme}
    (split : lexemes text = front ++ piece :: after) :
    piece.start = Text.byteLength (front.flatMap (·.spelling)) := by
  rw [start_of_lexemesFrom split, Nat.zero_add]

/-- Lexemes have tokens exactly when none of them is unknown. -/
theorem placedTokens_eq_ok_iff {pieces : List Lexeme} {tokens : List (Nat × Token)} :
    placedTokens pieces = .ok tokens ↔
      pieces.map (fun piece => (piece.start, piece.reading)) =
        tokens.map fun token => (token.1, Reading.token token.2) := by
  fun_induction placedTokens pieces generalizing tokens with
  | case1 => cases tokens <;> simp
  | case2 start spelling token rest found same ih =>
    cases tokens with
    | nil => simp
    | cons first others =>
      have tail := @ih others
      rw [same, Except.ok.injEq] at tail
      simp [Prod.ext_iff, ← tail, and_assoc]
  | case3 start spelling token rest e failed ih =>
    cases tokens with
    | nil => simp
    | cons first others =>
      have tail := @ih others
      rw [failed] at tail
      simp only [reduceCtorEq, false_iff] at tail
      simp [tail]
  | case4 => cases tokens <;> simp

/-- Lexemes have no tokens exactly when one of them is unknown, and the first that is tells so. -/
theorem placedTokens_eq_error_iff {pieces : List Lexeme} {e : ParseError} :
    placedTokens pieces = .error e ↔
      ∃ front piece behind c, pieces = front ++ piece :: behind ∧
        (∀ earlier ∈ front, ∃ token, earlier.reading = .token token) ∧
        piece.reading = .unknown c ∧ e = ⟨.unexpectedChar c, piece.start⟩ := by
  induction pieces with
  | nil => simp [placedTokens]
  | cons piece rest ih =>
    obtain ⟨start, spelling, reading⟩ := piece
    cases reading with
    | token token =>
      have tail : placedTokens (⟨start, spelling, .token token⟩ :: rest) = .error e ↔
          placedTokens rest = .error e := by
        rw [placedTokens]
        split <;> simp [*]
      rw [tail, ih]
      constructor
      · rintro ⟨front, piece, behind, c, rfl, known, found, same⟩
        exact ⟨_ :: front, piece, behind, c, rfl,
          List.forall_mem_cons.mpr ⟨⟨token, rfl⟩, known⟩, found, same⟩
      · rintro ⟨front, piece, behind, c, split, known, found, same⟩
        cases front with
        | nil =>
          cases split
          cases found
        | cons first front =>
          cases split
          exact ⟨front, piece, behind, c, rfl, (List.forall_mem_cons.mp known).2, found, same⟩
    | unknown c =>
      rw [placedTokens, Except.error.injEq]
      constructor
      · rintro rfl
        exact ⟨[], _, rest, c, rfl, fun _ none => absurd none List.not_mem_nil, rfl, rfl⟩
      · rintro ⟨front, piece, behind, other, split, known, found, rfl⟩
        cases front with
        | nil =>
          cases split
          cases found
          rfl
        | cons first front =>
          cases split
          obtain ⟨token, same⟩ := known _ (List.mem_cons_self ..)
          cases same

/-- A text that is not blank has the tokens of its lexemes. -/
theorem tokenize_of_normalize_ne_nil {text : String} (inked : Text.normalize text.toList ≠ []) :
    tokenize text = placedTokens (lexemes (Text.normalize text.toList)) := by
  unfold tokenize
  split
  · rename_i blank
    exact absurd blank inked
  · rfl

end Switching
