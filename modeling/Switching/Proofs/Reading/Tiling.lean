/-
**How a text is cut.**

A cursor goes through a text byte by byte. Where it stands, it gives what starts there and moves
behind it. A byte may lie inside a character, and there no text can be cut; but from the start of a
text the cursor comes to the places between characters only, and after finitely many items to the
end. What an item covers is the longest spelling that starts there, or a single character where no
spelling does.

* `Cursor.next`: one turn, which crashes where a text cannot be cut;
* `prefix_of_leadingSpelling`: the first spelling of the table that fits is the longest one;
* `Cursor.Between.next_cases`: what a turn does between two characters;
* `Cursor.Run.tiles`, `Cursor.Run.prefix_of_ended`: what the items of a run cover, and that there is
  one run only;
* `Cursor.exists_run`: the run to the end gives the lexemes;
* `Cursor.run_spec`: the items of a text, and of the normalized text that is read.
-/

import Switching.Proofs.Reading.Words

namespace Switching

/-! ### Places in a text -/

/-- What a text is counted in. -/
theorem Text.byteLength_eq_utf8ByteSize (text : List Char) :
    byteLength text = (String.ofList text).utf8ByteSize := by
  induction text with
  | nil => rfl
  | cons c rest ih =>
    rw [byteLength, String.ofList_cons, String.utf8ByteSize_append, String.utf8ByteSize_singleton,
      ih]

/-- A text, and the byte that has been reached in it. -/
structure Cursor where
  text : String
  byte : Nat

namespace Cursor

/-- The text from the cursor on: none where the byte is no place between two characters. -/
def rest? (cursor : Cursor) : Option (List Char) :=
  if valid : String.Pos.Raw.IsValid cursor.text ⟨cursor.byte⟩ then
    some (cursor.text.sliceFrom ⟨⟨cursor.byte⟩, valid⟩).copy.toList
  else none

/-- The cursor stands between these parts of its text. -/
def Between (cursor : Cursor) (before rest : List Char) : Prop :=
  cursor.text.toList = before ++ rest ∧ Text.byteLength before = cursor.byte

/-- The cursor behind some more characters. -/
def advance (cursor : Cursor) (chars : List Char) : Cursor :=
  { cursor with byte := cursor.byte + Text.byteLength chars }

theorem between_start (text : String) : Between ⟨text, 0⟩ [] text.toList := ⟨rfl, rfl⟩

namespace Between

variable {cursor : Cursor} {before rest chars after : List Char}

theorem rest? (between : cursor.Between before rest) : cursor.rest? = some rest := by
  obtain ⟨whole, place⟩ := between
  have split : cursor.text = String.ofList before ++ String.ofList rest := by
    rw [← String.ofList_append, ← whole, String.ofList_toList]
  have offset : (⟨cursor.byte⟩ : String.Pos.Raw) = (String.ofList before).rawEndPos := by
    rw [← place, Text.byteLength_eq_utf8ByteSize]
    rfl
  have valid := String.Pos.Raw.isValid_iff_exists_append.mpr ⟨_, _, split, offset⟩
  have splits : String.Pos.Splits ⟨⟨cursor.byte⟩, valid⟩ (String.ofList before)
      (String.ofList rest) := ⟨split, offset⟩
  rw [Cursor.rest?, dif_pos valid, (String.Pos.splits _).eq_right splits, String.toList_ofList]

theorem advance (between : cursor.Between before (chars ++ after)) :
    (cursor.advance chars).Between (before ++ chars) after := by
  obtain ⟨whole, place⟩ := between
  refine ⟨?_, ?_⟩
  · rw [List.append_assoc]
    exact whole
  · rw [Text.byteLength_append, place]
    rfl

/-- The end of a text is as far as it has bytes. -/
theorem byte_eq_of_nil (between : cursor.Between before []) :
    cursor.byte = cursor.text.utf8ByteSize := by
  obtain ⟨whole, place⟩ := between
  rw [← place, Text.byteLength_eq_utf8ByteSize, ← List.append_nil before, ← whole,
    String.ofList_toList]

end Between

end Cursor

/-! ### The longest spelling -/

/-- In the table no spelling starts a later one. -/
theorem pairwise_spellings :
    spellings.Pairwise fun earlier later => ¬ earlier.chars <+: later.chars := by
  decide

/-- **The first spelling that starts a text is the longest**: the others that do so start it. -/
theorem prefix_of_leadingSpelling {text : List Char} {spelling other : Spelling}
    (leading : leadingSpelling text = some spelling) (member : other ∈ spellings)
    (starts : other.chars <+: text) : other.chars <+: spelling.chars := by
  obtain ⟨fits, earlier, later, table, none⟩ := List.find?_eq_some_iff_append.mp leading
  have ordered := pairwise_spellings
  rw [table, List.mem_append, List.mem_cons] at member
  rw [table, List.pairwise_append, List.pairwise_cons] at ordered
  rcases member with first | rfl | last
  · have fails := none other first
    rw [List.isPrefixOf_iff_prefix.mpr starts] at fails
    cases fails
  · exact List.prefix_rfl
  · have apart := ordered.2.1.1 other last
    have either := List.prefix_or_prefix_of_prefix (List.isPrefixOf_iff_prefix.mp fits) starts
    exact either.resolve_left apart

/-- What is taken in front of the rest of a text: the longest spelling that starts there, or one
character where none does, which is a variable if it is a letter of either case. -/
inductive Taken : Reading → List Char → List Char → Prop
  | spelling {spelling : Spelling} {after : List Char} (member : spelling ∈ spellings)
      (longest : ∀ other ∈ spellings, other.chars <+: spelling.chars ++ after →
        other.chars <+: spelling.chars) :
      Taken (.token spelling.token) spelling.chars after
  | letter {c : Char} {v : Variable} {after : List Char} (letter : c.isAlpha = true)
      (name : v.name = c.toLower) (none : ∀ other ∈ spellings, ¬ other.chars <+: c :: after) :
      Taken (.token (.var v)) [c] after
  | unknown {c : Char} {after : List Char} (noLetter : c.isAlpha = false)
      (none : ∀ other ∈ spellings, ¬ other.chars <+: c :: after) :
      Taken (.unknown c) [c] after

theorem Taken.ne_nil {reading : Reading} {chars after : List Char}
    (taken : Taken reading chars after) : chars ≠ [] := by
  cases taken with
  | spelling member _ => exact chars_ne_nil_of_mem member
  | letter _ _ _ => exact List.cons_ne_nil _ _
  | unknown _ _ => exact List.cons_ne_nil _ _

/-- A character at which no spelling starts is taken alone. -/
theorem taken_ofChar {c : Char} {after : List Char} (alone : leadingSpelling (c :: after) = none) :
    Taken (.ofChar c) [c] after := by
  have none : ∀ other ∈ spellings, ¬ other.chars <+: c :: after := fun other member starts =>
    List.find?_eq_none.mp alone other member (List.isPrefixOf_iff_prefix.mpr starts)
  unfold Reading.ofChar
  split
  · rename_i letter
    exact .letter letter rfl none
  · rename_i other
    exact .unknown (Bool.not_eq_true _ ▸ other) none

/-! ### Turns -/

/-- What is found at a cursor. -/
inductive Turn where
  /-- The byte is no place between two characters. -/
  | crashed
  | ended
  | item (reading : Reading) (after : Cursor)

/-- What a run gives: what has been read, and the bytes where it starts and stops. -/
structure Item where
  start : Nat
  stop : Nat
  reading : Reading

namespace Cursor

/-- One turn. -/
def next (cursor : Cursor) : Turn :=
  match cursor.rest? with
  | none => .crashed
  | some [] => .ended
  | some (c :: rest) =>
    match leadingSpelling (c :: rest) with
    | some spelling => .item (.token spelling.token) (cursor.advance spelling.chars)
    | none => .item (.ofChar c) (cursor.advance [c])

/-- **What a turn does between two characters**: at the end of the text it ends, and elsewhere it
takes what the lexemes of the text start with. -/
theorem Between.next_cases {cursor : Cursor} {before rest : List Char}
    (between : cursor.Between before rest) :
    (rest = [] ∧ cursor.next = .ended) ∨
      ∃ reading chars after, rest = chars ++ after ∧ Taken reading chars after ∧
        cursor.next = .item reading (cursor.advance chars) ∧
        ∀ start, lexemesFrom start rest =
          ⟨start, chars, reading⟩ :: lexemesFrom (start + Text.byteLength chars) after := by
  unfold next
  rw [between.rest?]
  cases rest with
  | nil => exact .inl ⟨rfl, rfl⟩
  | cons c rest =>
    right
    cases leading : leadingSpelling (c :: rest) with
    | some spelling =>
      obtain ⟨⟨after, whole⟩, _⟩ := isPrefix_of_leadingSpelling leading
      have member := List.mem_of_find?_eq_some leading
      refine ⟨.token spelling.token, spelling.chars, after, whole.symm, .spelling member ?_,
        by simp only [leading], ?_⟩
      · intro other known starts
        rw [whole] at starts
        exact prefix_of_leadingSpelling leading known starts
      · intro start
        rw [← whole] at leading ⊢
        exact lexemesFrom_spelling leading start
    | none =>
      exact ⟨.ofChar c, [c], rest, rfl, taken_ofChar leading, by simp only [leading],
        lexemesFrom_alone leading⟩

/-! ### Runs -/

/-- A run of a cursor, with the items that it gives, up to another cursor. -/
inductive Run : Cursor → List Item → Cursor → Prop
  | here (cursor : Cursor) : Run cursor [] cursor
  | item {cursor after last : Cursor} {reading : Reading} {items : List Item}
      (given : cursor.next = .item reading after) (later : Run after items last) :
      Run cursor (⟨cursor.byte, after.byte, reading⟩ :: items) last

/-- **There is one run only**: those to the end go on where the others are. -/
theorem Run.prefix_of_ended {cursor last reached : Cursor} {items others : List Item}
    (whole : Run cursor items last) (ended : last.next = .ended)
    (part : Run cursor others reached) : ∃ more, items = others ++ more ∧ Run reached more last := by
  induction part generalizing items with
  | here cursor => exact ⟨items, rfl, whole⟩
  | item given _ ih =>
    cases whole with
    | here => rw [ended] at given; cases given
    | item same later =>
      rw [given] at same
      cases same
      obtain ⟨more, rfl, rest⟩ := ih later
      exact ⟨more, rfl, rest⟩

/-- A run to the end crashes nowhere on its way. -/
theorem Run.next_ne_crashed {cursor last : Cursor} {items : List Item}
    (run : Run cursor items last) (ended : last.next = .ended) : cursor.next ≠ .crashed := by
  cases run with
  | here => rw [ended]; exact Turn.noConfusion
  | item given _ => rw [given]; exact Turn.noConfusion

end Cursor

/-! ### What the items cover -/

/-- The items follow each other without gap or overlap from one byte to another. -/
def Tiles : Nat → List Item → Nat → Prop
  | first, [], last => first = last
  | first, item :: items, last => item.start = first ∧ item.start < item.stop ∧
      Tiles item.stop items last

/-- What the item covers in the text is taken there. -/
def Item.Covers (text : String) (item : Item) : Prop :=
  ∃ before chars after, text.toList = before ++ (chars ++ after) ∧
    Text.byteLength before = item.start ∧ Text.byteLength (before ++ chars) = item.stop ∧
    Taken item.reading chars after

/-- The part of the text that a lexeme is. -/
def Lexeme.item (piece : Lexeme) : Item :=
  ⟨piece.start, piece.start + Text.byteLength piece.spelling, piece.reading⟩

/-- The error of a list of lexemes is that of its items. -/
theorem placedTokens_eq_error_iff_items {pieces : List Lexeme} {e : ParseError} :
    placedTokens pieces = .error e ↔
      ∃ front item behind c, pieces.map Lexeme.item = front ++ item :: behind ∧
        (∀ earlier ∈ front, ∃ token, earlier.reading = .token token) ∧
        item.reading = .unknown c ∧ e = ⟨.unexpectedChar c, item.start⟩ := by
  rw [placedTokens_eq_error_iff]
  constructor
  · rintro ⟨front, piece, behind, c, whole, known, found, same⟩
    refine ⟨front.map Lexeme.item, piece.item, behind.map Lexeme.item, c, ?_,
      List.forall_mem_map.mpr known, found, same⟩
    rw [whole, List.map_append, List.map_cons]
  · rintro ⟨_, _, _, c, whole, known, found, same⟩
    obtain ⟨front, _, split, rfl, later⟩ := List.map_eq_append_iff.mp whole
    obtain ⟨piece, behind, rfl, rfl, rfl⟩ := List.map_eq_cons_iff.mp later
    exact ⟨front, piece, behind, c, split,
      fun earlier member => known earlier.item (List.mem_map_of_mem member), found, same⟩

theorem Text.byteLength_pos {text : List Char} (nonempty : text ≠ []) : 0 < byteLength text := by
  obtain ⟨c, rest, rfl⟩ := List.exists_cons_of_ne_nil nonempty
  exact Nat.add_pos_left c.utf8Size_pos _

namespace Cursor

/-- **The items of a run tile what it goes through**, and each of them covers what is taken there. -/
theorem Run.tiles {cursor last : Cursor} {items : List Item} (run : Run cursor items last)
    {before rest : List Char} (between : cursor.Between before rest) :
    last.text = cursor.text ∧ Tiles cursor.byte items last.byte ∧
      ∀ item ∈ items, item.Covers cursor.text := by
  induction run generalizing before rest with
  | here cursor => exact ⟨rfl, rfl, fun _ none => absurd none List.not_mem_nil⟩
  | @item cursor after last reading items given _ ih =>
    rcases between.next_cases with ⟨_, ended⟩ | ⟨_, chars, behind, rfl, taken, same, _⟩
    · rw [ended] at given
      cases given
    · rw [same] at given
      cases given
      obtain ⟨text, tiles, covers⟩ := ih between.advance
      have longer : cursor.byte < (cursor.advance chars).byte :=
        Nat.lt_add_of_pos_right (Text.byteLength_pos taken.ne_nil)
      have covered : Item.Covers cursor.text ⟨cursor.byte, (cursor.advance chars).byte, reading⟩ :=
        ⟨before, chars, behind, between.1, between.2, between.advance.2, taken⟩
      exact ⟨text, ⟨rfl, longer, tiles⟩, List.forall_mem_cons.mpr ⟨covered, covers⟩⟩

/-- **The run to the end gives the lexemes**: there is less text left after each turn. -/
theorem exists_run {cursor : Cursor} {before rest : List Char}
    (between : cursor.Between before rest) :
    ∃ last, Run cursor ((lexemesFrom cursor.byte rest).map Lexeme.item) last ∧
      last.next = .ended ∧ last.Between (before ++ rest) [] := by
  induction length : rest.length using Nat.strongRecOn generalizing cursor before rest with
  | ind _ ih =>
    rcases between.next_cases with ⟨rfl, ended⟩ | ⟨reading, chars, after, rfl, taken, given, cut⟩
    · rw [lexemesFrom]
      exact ⟨cursor, .here cursor, ended, by rwa [List.append_nil]⟩
    · have some := List.length_pos_iff.mpr taken.ne_nil
      rw [List.length_append] at length
      have shorter := Nat.lt_of_lt_of_eq (Nat.lt_add_of_pos_left some) length
      obtain ⟨last, run, ended, reached⟩ := ih _ shorter between.advance rfl
      rw [cut, List.map_cons]
      exact ⟨last, .item given run, ended, by rwa [← List.append_assoc]⟩

/-- A run to the end gives the lexemes and nothing else. -/
theorem Run.items_eq {text : String} {items : List Item} {last : Cursor}
    (run : Run ⟨text, 0⟩ items last) (ended : last.next = .ended) :
    items = (lexemes text.toList).map Lexeme.item := by
  obtain ⟨_, whole, finished, _⟩ := exists_run (between_start text)
  obtain ⟨more, same, further⟩ := whole.prefix_of_ended finished run
  cases further with
  | here => rw [List.append_nil] at same; exact same.symm
  | item given _ => rw [ended] at given; cases given

/-- **How a text is cut.** Every run of a cursor from the start of a text goes on to the end after
finitely many items, which are the lexemes, and crashes nowhere; the items tile the text, and each of
them covers what is taken there. The tokens of a text that is not blank are the items of the
normalized text, if none of them is unknown, and otherwise the first that is unknown is the error. -/
theorem run_spec (text : String) :
    (∃ items last, items = (lexemes text.toList).map Lexeme.item ∧
      Run ⟨text, 0⟩ items last ∧ last.next = .ended ∧
      (∀ others reached, Run ⟨text, 0⟩ others reached →
        others <+: items ∧ reached.next ≠ .crashed) ∧
      Tiles 0 items text.utf8ByteSize ∧ ∀ item ∈ items, item.Covers text) ∧
    (Text.normalize text.toList ≠ [] → ∀ items last,
      Run ⟨String.ofList (Text.normalize text.toList), 0⟩ items last → last.next = .ended →
      (∀ placed, tokenize text = .ok placed ↔
        items.map (fun item => (item.start, item.reading)) =
          placed.map fun token => (token.1, Reading.token token.2)) ∧
      ∀ e, tokenize text = .error e ↔
        ∃ front item behind c, items = front ++ item :: behind ∧
          (∀ earlier ∈ front, ∃ token, earlier.reading = .token token) ∧
          item.reading = .unknown c ∧ e = ⟨.unexpectedChar c, item.start⟩) := by
  refine ⟨?_, ?_⟩
  · obtain ⟨last, run, ended, reached⟩ := exists_run (between_start text)
    obtain ⟨same, tiles, covers⟩ := run.tiles (between_start text)
    rw [reached.byte_eq_of_nil, same] at tiles
    refine ⟨_, last, rfl, run, ended, ?_, tiles, covers⟩
    intro others reached part
    obtain ⟨more, whole, further⟩ := run.prefix_of_ended ended part
    exact ⟨⟨more, whole.symm⟩, further.next_ne_crashed ended⟩
  · intro inked items last run ended
    obtain rfl := run.items_eq ended
    rw [tokenize_of_normalize_ne_nil inked, String.toList_ofList]
    refine ⟨?_, ?_⟩
    · intro placed
      rw [placedTokens_eq_ok_iff, List.map_map]
      rfl
    · exact fun e => placedTokens_eq_error_iff_items

/-- A sign of three bytes, a capital, a character of the same length that is unknown, and a doubled
sign in front of a single one. -/
example : (lexemes ['∧', 'A', '€', '&', '&', '&']).map (fun piece => (piece.start, piece.reading)) =
    [(0, .token (.op .and)), (3, .token (.var ⟨'a', rfl⟩)), (4, .unknown '€'),
     (7, .token (.op .and)), (9, .token (.op .and))] := by
  decide +kernel

end Cursor

end Switching
