/-
**Quoted characters.**

A message shows a character between single quotes, and writes it so that the reader sees which one
it is: five characters have a short escape, an invisible one is written by its code point.

* `escaped_eq_self`: a letter is shown as it is.
-/

import Switching.Text.Invisible
import Switching.Text.Letter

namespace Switching.Text

/-- The hexadecimal escape of a character, without leading zeros. -/
def codeEscape (c : Char) : List Char :=
  ['\\', 'u', '\x7b'] ++ Nat.toDigits 16 c.toNat ++ ['\x7d']

/-- The written form of a character inside the quotes. -/
def escaped (c : Char) : List Char :=
  if c = '\x00' then ['\\', '0']
  else if c = '\t' then ['\\', 't']
  else if c = '\r' then ['\\', 'r']
  else if c = '\n' then ['\\', 'n']
  else if c = '\x27' ∨ c = '\\' then ['\\', c]
  else if isInvisible c then codeEscape c
  else [c]

/-- The character between single quotes. -/
def quoted (c : Char) : String := String.ofList ('\x27' :: (escaped c ++ ['\x27']))

theorem escaped_eq_self {c : Char} (letter : c.isAlpha = true) : escaped c = [c] := by
  have code := isAlpha_iff.mp letter
  have visible := not_isInvisible_of_printable (c := c) (by omega) (by omega)
  unfold escaped
  rw [visible]
  split
  · subst c; simp at letter
  split
  · subst c; simp at letter
  split
  · subst c; simp at letter
  split
  · subst c; simp at letter
  split
  · rename_i special
    rcases special with rfl | rfl <;> simp at letter
  · simp

end Switching.Text
