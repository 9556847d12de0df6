/-
**Normalized text.**

Expressions are read without their blanks and in lower case. Positions in messages are byte offsets
into this normalized text.

* `normalize_append`: a text is normalized character by character;
* `normalize_eq_nil_iff`: exactly the blank texts normalize to nothing.
-/

import Switching.Text.Blank
import Switching.Text.Lowercase

namespace Switching.Text

/-- The text in lower case and without blanks. -/
def normalize (text : List Char) : List Char :=
  (text.filter fun c => !isBlank c).flatMap lowercase

/-- The number of bytes of a text in UTF-8. -/
def byteLength : List Char → Nat
  | [] => 0
  | c :: rest => c.utf8Size + byteLength rest

theorem normalize_append (first second : List Char) :
    normalize (first ++ second) = normalize first ++ normalize second := by
  simp [normalize]

/-- Exactly the blank texts normalize to nothing. -/
theorem normalize_eq_nil_iff {text : List Char} :
    normalize text = [] ↔ ∀ c ∈ text, isBlank c = true := by
  simp [normalize, lowercase_ne_nil]

theorem byteLength_append (first second : List Char) :
    byteLength (first ++ second) = byteLength first + byteLength second := by
  induction first with
  | nil => simp [byteLength]
  | cons c first ih => simp [byteLength, ih, Nat.add_assoc]

end Switching.Text
