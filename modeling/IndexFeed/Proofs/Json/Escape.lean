import IndexFeed.Json.Basic

/-!
# How characters are written

Inside the quotes of a compact text a character stands for itself, or a letter behind a backslash
stands for it, or it is written by its number.  `escaping` says so once, and whatever holds of the three
ways holds of what `escapedChar` writes.
-/

set_option autoImplicit false

namespace IndexFeed.Json

/-- The letters behind a backslash, each with the character that it stands for. -/
def shortEscapes : List (Char × Char) :=
  [('\"', '\"'), ('\\', '\\'), ('b', Char.ofNat 0x08), ('f', Char.ofNat 0x0c), ('n', '\n'),
    ('r', '\r'), ('t', '\t')]

/-- The ways of writing a character. -/
inductive Escaping (c : Char) : List Char → Prop where
  | short {y : Char} : (y, c) ∈ shortEscapes → Escaping c ['\\', y]
  | numbered : c.toNat < 0x20 → Escaping c
      ['\\', 'u', '0', '0', Octet.hexDigit (c.toNat / 16), Octet.hexDigit (c.toNat % 16)]
  | plain : c ≠ '\"' → c ≠ '\\' → ¬c.toNat < 0x20 → Escaping c [c]

theorem escaping (c : Char) : Escaping c (escapedChar c) := by
  unfold escapedChar
  -- the branches in front of the last two are the short escapes, in order
  iterate 7
    split
    · next h =>
      rw [h]
      exact .short (by decide)
  split
  · exact .numbered ‹_›
  · next hquote hbackslash _ _ _ _ _ hcontrol => exact .plain hquote hbackslash hcontrol

end IndexFeed.Json
