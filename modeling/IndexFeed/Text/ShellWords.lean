/-!
# Shell words

A command line cut into words as a POSIX shell cuts it, and the single-quoted form of a word.

`split?` reads the text once, in one of seven modes.  Separators are space, tab and line feed; a
number sign where a word would start opens a comment up to the end of the line; a backslash
outside quotes makes the next character plain and swallows a line feed; single quotes make
everything plain; between double quotes a backslash is special before dollar sign, backquote,
double quote, backslash and line feed.  A text that ends inside quotes or behind a backslash has
no words.
-/

set_option autoImplicit false

namespace IndexFeed.ShellWords

/-- Where in a command line the reader stands. -/
inductive Mode where
  /-- between words -/
  | gap
  /-- in a comment -/
  | comment
  /-- in a word, outside quotes -/
  | plain
  /-- behind a backslash outside quotes -/
  | escape
  /-- between single quotes -/
  | single
  /-- between double quotes -/
  | double
  /-- behind a backslash between double quotes -/
  | doubleEscape
  deriving DecidableEq, Repr, Inhabited

/-- The characters that end a word. -/
def isSeparator (c : Char) : Bool := c == ' ' || c == '\t' || c == '\n'

/-- The characters that lose a backslash in front of them between double quotes. -/
def isDoubleSpecial (c : Char) : Bool :=
  c == '$' || c == Char.ofNat 0x60 || c == '\"' || c == '\\'

/-- What a character outside quotes does to the word: the mode after it and what it adds. -/
def enter (c : Char) : Mode × List Char :=
  if c == '\"' then (.double, [])
  else if c == '\'' then (.single, [])
  else if c == '\\' then (.escape, [])
  else (.plain, [c])

/-- The rest of the word in progress (nothing between words) and the words after it. -/
def read : Mode → List Char → Option (List Char × List (List Char))
  | .gap, [] | .comment, [] | .plain, [] => some ([], [])
  | .escape, [] | .single, [] | .double, [] | .doubleEscape, [] => none
  | .gap, c :: r =>
    if isSeparator c then read .gap r
    else if c == '#' then read .comment r
    else
      let (mode, added) := enter c
      (read mode r).map fun (word, later) => ([], (added ++ word) :: later)
  | .comment, c :: r => if c == '\n' then read .gap r else read .comment r
  | .plain, c :: r =>
    if isSeparator c then (read .gap r).map fun (_, later) => ([], later)
    else
      let (mode, added) := enter c
      (read mode r).map fun (word, later) => (added ++ word, later)
  | .escape, c :: r =>
    (read .plain r).map fun (word, later) => (if c == '\n' then word else c :: word, later)
  | .single, c :: r =>
    if c == '\'' then read .plain r
    else (read .single r).map fun (word, later) => (c :: word, later)
  | .double, c :: r =>
    if c == '\"' then read .plain r
    else if c == '\\' then read .doubleEscape r
    else (read .double r).map fun (word, later) => (c :: word, later)
  | .doubleEscape, c :: r =>
    (read .double r).map fun (word, later) =>
      (if isDoubleSpecial c then c :: word else if c == '\n' then word else '\\' :: c :: word, later)

/-- The words of a command line, unless it ends inside quotes or behind a backslash. -/
def split? (s : String) : Option (List String) :=
  (read .gap s.toList).map fun (_, words) => words.map String.ofList

/-! ## Quoting -/

/-- The inside of a single-quoted word: a single quote closes the quotes, stands behind a
backslash and opens them again. -/
def quotedBody : List Char → List Char
  | [] => []
  | c :: r => if c == '\'' then '\'' :: '\\' :: '\'' :: '\'' :: quotedBody r else c :: quotedBody r

/-- A word between single quotes. -/
def quoted (word : List Char) : List Char := '\'' :: (quotedBody word ++ ['\''])

/-- A command line that is cut into exactly these words. -/
def join (words : List String) : String :=
  String.ofList ([' '].intercalate (words.map fun w => quoted w.toList))

end IndexFeed.ShellWords
