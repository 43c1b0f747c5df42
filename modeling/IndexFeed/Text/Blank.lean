/-!
# Blank characters

The characters with the Unicode property White_Space, and the two operations that rest on them:
cutting a text into words and trimming it at both ends.
-/

set_option autoImplicit false

namespace IndexFeed.Blank

/-- The ranges of the property White_Space. -/
def ranges : List (Nat × Nat) :=
  [(0x09, 0x0d), (0x20, 0x20), (0x85, 0x85), (0xa0, 0xa0), (0x1680, 0x1680), (0x2000, 0x200a),
   (0x2028, 0x2029), (0x202f, 0x202f), (0x205f, 0x205f), (0x3000, 0x3000)]

/-- A character with the property White_Space. -/
def isBlank (c : Char) : Bool := ranges.any fun (lo, hi) => lo ≤ c.toNat && c.toNat ≤ hi

/-- The rest of the word in progress, and the words after it. -/
def wordsFrom : List Char → List Char × List (List Char)
  | [] => ([], [])
  | c :: r =>
    let (word, later) := wordsFrom r
    if isBlank c then ([], if word.isEmpty then later else word :: later)
    else (c :: word, later)

/-- The maximal runs of characters that are not blank, in order. -/
def words (s : String) : List String :=
  let (word, later) := wordsFrom s.toList
  (if word.isEmpty then later else word :: later).map String.ofList

/-- A list of characters without the blanks in front. -/
def trimFront (cs : List Char) : List Char := cs.dropWhile isBlank

/-- A text without the blanks at either end. -/
def trim (s : String) : String :=
  String.ofList (trimFront (trimFront s.toList).reverse).reverse

end IndexFeed.Blank
