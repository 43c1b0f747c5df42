/-!
# Keywords

Words out of a fixed table, which may be written in upper or lower case.  Only ASCII letters have
their case folded: beyond ASCII the one character with an ASCII letter as its lower case is the
Kelvin sign, a `k`, and no table of this library has a keyword with that letter.
-/

set_option autoImplicit false

namespace IndexFeed.Keyword

/-- A text with its ASCII letters in lower case. -/
def lower (s : String) : String := String.ofList (s.toList.map Char.toLower)

/-- What a keyword stands for. -/
def find? {α : Type} (table : List (String × α)) (s : String) : Option α := table.lookup (lower s)

end IndexFeed.Keyword
