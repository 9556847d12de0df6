/-
**The printed table.**

Every cell of a printed table is one character wide, in bytes too, and a space stands between two
cells. So the lines of a table over distinct variables are equally long, the rule included, which is
measured by the names above it. What is printed can be read back: no line holds a newline, so the text
determines the lines; the names determine the variables, which determine the assignments of the rows;
and each row ends in its result.

* `eq_of_flatMap_ended`: a text determines its lines;
* `getElem?_spaced`: spaced characters stand at every second place;
* `toList_text`: the text of a table is made of its lines;
* `length_of_mem_lines`: all lines of a table over distinct variables are equally long;
* `tabulate_eq_of_text`: tables that are printed alike are equal;
* `text_spec`: what is printed.
-/

import Mathlib.Data.List.Basic
import Switching.Proofs.Table.Rows
import Switching.Text.Normalized
import Switching.TruthTable

namespace Switching

/-! ### Lines -/

/-- **A text determines its lines**, if these hold no newline. -/
theorem eq_of_flatMap_ended {lines others : List (List Char)}
    (unbroken : ∀ line ∈ lines, '\n' ∉ line) (unbroken' : ∀ line ∈ others, '\n' ∉ line)
    (same : lines.flatMap (· ++ ['\n']) = others.flatMap (· ++ ['\n'])) : lines = others := by
  have first {line : List Char} (whole : '\n' ∉ line) (rest : List Char) :
      (line ++ ['\n'] ++ rest).takeWhile (· ≠ '\n') = line := by
    have all : ∀ c ∈ line, decide (c ≠ '\n') = true := fun c member =>
      decide_eq_true fun equal => whole (equal ▸ member)
    rw [List.append_assoc, List.takeWhile_append_of_pos all]
    exact List.append_nil line
  induction lines generalizing others with
  | nil =>
    cases others with
    | nil => rfl
    | cons other others => simp at same
  | cons line lines ih =>
    cases others with
    | nil => simp at same
    | cons other others =>
      obtain ⟨whole, later⟩ := List.forall_mem_cons.mp unbroken
      obtain ⟨whole', later'⟩ := List.forall_mem_cons.mp unbroken'
      rw [List.flatMap_cons, List.flatMap_cons] at same
      have equal := congrArg (List.takeWhile (· ≠ '\n')) same
      rw [first whole, first whole'] at equal
      subst equal
      rw [ih later later' (List.append_cancel_left same)]

/-- The text is lines of this number and width, in characters as in bytes, each ended by a newline. -/
def Aligned (text : String) (count width : Nat) : Prop :=
  ∃ lines : List (List Char), text.toList = lines.flatMap (· ++ ['\n']) ∧ lines.length = count ∧
    ∀ line ∈ lines, '\n' ∉ line ∧ line.length = width ∧ Text.byteLength line = width

/-! ### Characters of one place -/

/-- A character that takes one byte and ends no line. -/
def OnePlace (c : Char) : Prop := c ≠ '\n' ∧ c.utf8Size = 1

theorem Variable.onePlace_name (v : Variable) : OnePlace v.name := by
  have bounds := v.toNat_name_bounds
  constructor
  · intro equal
    rw [equal] at bounds
    exact absurd bounds.1 (by decide)
  · rw [Char.utf8Size_eq_one_iff, UInt32.le_iff_toNat_le]
    exact Nat.le_trans bounds.2 (by decide)

theorem onePlace_digit (value : Bool) : OnePlace (Text.digit value) := by
  cases value <;> exact ⟨by decide, rfl⟩

theorem byteLength_of_onePlace {text : List Char} (narrow : ∀ c ∈ text, OnePlace c) :
    Text.byteLength text = text.length := by
  induction text with
  | nil => rfl
  | cons c rest ih =>
    obtain ⟨⟨_, single⟩, later⟩ := List.forall_mem_cons.mp narrow
    rw [Text.byteLength, single, ih later, List.length_cons, Nat.add_comm]

namespace TruthTable

/-! ### Spaced characters -/

/-- **Spaced characters stand at every second place**, so they can be told apart. -/
theorem getElem?_spaced (chars : List Char) (place : Nat) :
    (spaced chars)[2 * place]? = chars[place]? := by
  fun_induction spaced chars generalizing place with
  | case1 => rfl
  | case2 c => cases place <;> rfl
  | case3 c rest _ ih =>
    cases place with
    | zero => rfl
    | succ place => exact ih place

theorem spaced_injective {chars others : List Char} (same : spaced chars = spaced others) :
    chars = others := by
  refine List.ext_getElem? fun place => ?_
  rw [← getElem?_spaced, same, getElem?_spaced]

/-- There is one space less than there are characters. -/
theorem length_spaced (chars : List Char) : (spaced chars).length = 2 * chars.length - 1 := by
  fun_induction spaced chars with
  | case1 => rfl
  | case2 c => rfl
  | case3 c rest some ih =>
    have positive := List.length_pos_iff.mpr some
    simp only [List.length_cons, ih]
    omega

theorem onePlace_spaced {chars : List Char} (narrow : ∀ c ∈ chars, OnePlace c) :
    ∀ c ∈ spaced chars, OnePlace c := by
  fun_induction spaced chars with
  | case1 => exact narrow
  | case2 c => exact narrow
  | case3 c rest _ ih =>
    obtain ⟨first, later⟩ := List.forall_mem_cons.mp narrow
    have space : OnePlace ' ' := ⟨by decide, rfl⟩
    exact List.forall_mem_cons.mpr ⟨first, List.forall_mem_cons.mpr ⟨space, ih later⟩⟩

/-! ### The lines of a table -/

/-- A line of a table: characters with spaces between them, and one more behind a bar. -/
def barred (chars : List Char) (last : Char) : List Char := spaced chars ++ [' ', '|', ' ', last]

/-- The line below the names, as wide as they are. -/
def rule (names : List Char) : List Char :=
  List.replicate (spaced names).length '-' ++ ['-', '+', '-', '-']

/-- The lines of a table, without the newlines that end them. -/
def lines (table : TruthTable) : List (List Char) :=
  barred (table.vars.map Variable.name) 'f' :: rule (table.vars.map Variable.name) ::
    table.rows.map fun row => barred (row.assignment.values.map Text.digit) (Text.digit row.result)

/-- **The text of a table is made of its lines.** -/
theorem toList_text (table : TruthTable) :
    table.text.toList = table.lines.flatMap (· ++ ['\n']) := by
  have row : rowLine = fun row =>
      barred (row.assignment.values.map Text.digit) (Text.digit row.result) ++ ['\n'] := by
    funext row
    simp [rowLine, barred]
  rw [text, String.toList_ofList, lines, List.flatMap_cons, List.flatMap_cons, List.flatMap_map, row]
  simp [headerLine, ruleLine, barred, rule]

theorem length_barred (chars : List Char) (last : Char) :
    (barred chars last).length = 2 * chars.length - 1 + 4 := by
  rw [barred, List.length_append, length_spaced]
  rfl

theorem length_rule (names : List Char) : (rule names).length = 2 * names.length - 1 + 4 := by
  rw [rule, List.length_append, List.length_replicate, length_spaced]
  rfl

theorem barred_inj {chars others : List Char} {last final : Char} :
    barred chars last = barred others final ↔ chars = others ∧ last = final := by
  constructor
  · intro same
    obtain ⟨front, back⟩ := List.append_inj' same rfl
    exact ⟨spaced_injective front, by simpa using back⟩
  · rintro ⟨rfl, rfl⟩
    rfl

theorem onePlace_barred {chars : List Char} {last : Char} (narrow : ∀ c ∈ chars, OnePlace c)
    (narrow' : OnePlace last) : ∀ c ∈ barred chars last, OnePlace c := by
  have space : OnePlace ' ' := ⟨by decide, rfl⟩
  have bar : OnePlace '|' := ⟨by decide, rfl⟩
  refine List.forall_mem_append.mpr ⟨onePlace_spaced narrow, ?_⟩
  simp [space, bar, narrow']

theorem onePlace_rule (names : List Char) : ∀ c ∈ rule names, OnePlace c := by
  have dash : OnePlace '-' := ⟨by decide, rfl⟩
  have cross : OnePlace '+' := ⟨by decide, rfl⟩
  refine List.forall_mem_append.mpr ⟨fun c member => ?_, ?_⟩
  · rw [List.eq_of_mem_replicate member]
    exact dash
  · simp [dash, cross]

/-- **All characters of the lines take one place.** -/
theorem onePlace_of_mem_lines {table : TruthTable} {line : List Char}
    (member : line ∈ table.lines) : ∀ c ∈ line, OnePlace c := by
  rcases List.mem_cons.mp member with rfl | below
  · exact onePlace_barred (List.forall_mem_map.mpr fun v _ => v.onePlace_name) ⟨by decide, rfl⟩
  rcases List.mem_cons.mp below with rfl | lower
  · exact onePlace_rule _
  · obtain ⟨row, _, rfl⟩ := List.mem_map.mp lower
    exact onePlace_barred (List.forall_mem_map.mpr fun value _ => onePlace_digit value)
      (onePlace_digit row.result)

theorem newline_not_mem_of_mem_lines {table : TruthTable} {line : List Char}
    (member : line ∈ table.lines) : '\n' ∉ line :=
  fun inside => (onePlace_of_mem_lines member '\n' inside).1 rfl

/-! ### Tables of functions -/

theorem length_lines_tabulate (vars : List Variable) (f : Nat → Assignment → Bool) :
    (tabulate vars f).lines.length = 2 ^ vars.length + 2 := by
  rw [lines, List.length_cons, List.length_cons, List.length_map, length_rows_tabulate,
    Nat.one_shiftLeft]

/-- **All lines of a table over distinct variables are equally long.** Where a variable is repeated,
the rows have fewer cells than there are names. -/
theorem length_of_mem_lines {vars : List Variable} (distinct : vars.Nodup)
    (f : Nat → Assignment → Bool) {line : List Char} (member : line ∈ (tabulate vars f).lines) :
    line.length = 2 * vars.length - 1 + 4 := by
  rcases List.mem_cons.mp member with rfl | below
  · rw [length_barred, List.length_map, vars_tabulate]
  rcases List.mem_cons.mp below with rfl | lower
  · rw [length_rule, List.length_map, vars_tabulate]
  · obtain ⟨row, listed, rfl⟩ := List.mem_map.mp lower
    obtain ⟨index, _, rfl⟩ := List.mem_map.mp listed
    have cells : (rowAt vars f index).assignment.values.length = vars.length := by
      show (assignmentAt vars index).values.length = _
      rw [Assignment.length_values, ← Assignment.length_vars, vars_assignmentAt distinct]
    rw [length_barred, List.length_map, cells]

theorem aligned_tabulate {vars : List Variable} (distinct : vars.Nodup)
    (f : Nat → Assignment → Bool) :
    Aligned (tabulate vars f).text (2 ^ vars.length + 2) (2 * vars.length - 1 + 4) := by
  refine ⟨_, toList_text _, length_lines_tabulate vars f, fun line member => ?_⟩
  have length := length_of_mem_lines distinct f member
  exact ⟨newline_not_mem_of_mem_lines member, length,
    (byteLength_of_onePlace (onePlace_of_mem_lines member)).trans length⟩

/-- **Tables that are printed alike are equal.** The names tell the variables, on which the assignments
of the rows depend, and the last cells tell the results. -/
theorem tabulate_eq_of_text {vars others : List Variable} {f g : Nat → Assignment → Bool}
    (same : (tabulate vars f).text = (tabulate others g).text) :
    tabulate vars f = tabulate others g := by
  have printed : (tabulate vars f).lines = (tabulate others g).lines := by
    refine eq_of_flatMap_ended (fun _ => newline_not_mem_of_mem_lines)
      (fun _ => newline_not_mem_of_mem_lines) ?_
    rw [← toList_text, same, toList_text]
  obtain ⟨names, _, rows⟩ : _ ∧ _ ∧ _ := by simpa only [lines, List.cons.injEq] using printed
  obtain rfl : vars = others := by
    refine List.map_injective_iff.mpr (fun v w equal => ?_) (barred_inj.mp names).1
    cases v
    cases w
    cases equal
    rfl
  have results : ∀ index ∈ List.range (1 <<< vars.length),
      rowAt vars f index = rowAt vars g index := by
    intro index member
    rw [tabulate, tabulate, List.map_map, List.map_map] at rows
    have cells := List.map_inj_left.mp rows index member
    have result := Text.digit_injective (barred_inj.mp cells).2
    exact congrArg (TableRow.mk (assignmentAt vars index)) result
  rw [tabulate, tabulate, List.map_congr_left results]

/-- **The printed table is aligned and loses nothing.** Over distinct variables, or none, and whatever
its results are, a table is printed in two lines more than it has rows, each ended by a newline and all
of them equally long. Tables that are printed alike have the same variables, assignments and results,
even if they repeat a variable. -/
theorem text_spec :
    (∀ vars : List Variable, vars.Nodup → ∀ f,
      Aligned (tabulate vars f).text (2 ^ vars.length + 2) (2 * vars.length - 1 + 4)) ∧
    ∀ vars others f g, (tabulate vars f).text = (tabulate others g).text →
      tabulate vars f = tabulate others g :=
  ⟨fun _ distinct f => aligned_tabulate distinct f, fun _ _ _ _ => tabulate_eq_of_text⟩

/-- Two variables give six lines of seven characters, none gives three of four; and a function of the
row's number is printed like one of the values that comes to the same. -/
theorem text_b_a :
    let b : Variable := ⟨'b', by decide⟩
    let a : Variable := ⟨'a', by decide⟩
    let numbered := tabulate [b, a] fun index _ => [false, true, true, false].getD index false
    let valued := tabulate [b, a] fun _ assignment => assignment.get? b != assignment.get? a
    Aligned numbered.text 6 7 ∧ Aligned (tabulate [] fun _ _ => true).text 3 4 ∧
      numbered.text = valued.text ∧ numbered = valued := by
  intro b a numbered valued
  obtain ⟨aligned, lossless⟩ := text_spec
  have alike : numbered.text = valued.text := by decide
  exact ⟨aligned [b, a] (by decide) _, aligned [] List.nodup_nil _, alike, lossless _ _ _ _ alike⟩

end TruthTable

end Switching
