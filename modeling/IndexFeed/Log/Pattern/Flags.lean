import IndexFeed.Text.Blank

/-!
# Flags of a pattern

What decides how a pattern is read, and what a list of flags in it changes.  The laws say that
skipping blanks leaves an end of the text: a reader that goes on there cannot run forever.
-/

set_option autoImplicit false

namespace IndexFeed.Log.Pattern

/-- How a pattern is read.  Flags that only bear on what a pattern matches are not kept. -/
structure Flags where
  /-- letters match in upper and in lower case -/
  anyCase : Bool := false
  /-- blanks and comments do not count -/
  spaced : Bool := false
  /-- classes hold characters, not octets -/
  unicode : Bool := true
  deriving DecidableEq, Repr, Inhabited

namespace Flags

/-! ## Lists of flags -/

/-- The letters of all flags. -/
def letters : List Char := ['i', 'm', 's', 'U', 'u', 'R', 'x']

/-- A list of flags: the ones behind a hyphen are unset.  Nothing stands twice, and something
follows the hyphen. -/
def isList (cs : List Char) : Bool :=
  cs.Nodup && cs.all (fun c => c == '-' || letters.contains c) && cs.getLast? != some '-'

/-- The state of one flag behind a list. -/
def state (cs : List Char) (letter : Char) (before : Bool) : Bool :=
  if (cs.takeWhile (· != '-')).contains letter then true
  else if cs.contains letter then false
  else before

/-- The flags behind a list. -/
def changed (f : Flags) (cs : List Char) : Flags :=
  ⟨state cs 'i' f.anyCase, state cs 'x' f.spaced, state cs 'u' f.unicode⟩

/-- Characters can stand for themselves.  Where they are not octets their case has to count: it is
not known which letters beyond ASCII belong together. -/
def admitsChars (f : Flags) : Bool := !(f.anyCase && f.unicode)

/-- Flags that are set and flags that are unset in one list. -/
example :
    isList "i-xu".toList = true ∧ isList "i-i".toList = false ∧ isList "i-".toList = false ∧
      changed ⟨false, true, true⟩ "i-xu".toList = ⟨true, false, false⟩ := by
  decide +kernel

/-! ## Blanks and comments -/

/-- A text without the blanks and the comments in front.  A comment ends with its line. -/
def behindBlanks : (comment : Bool) → List Char → List Char
  | _, [] => []
  | true, c :: cs => behindBlanks (c != '\n') cs
  | false, c :: cs =>
    if Blank.isBlank c then behindBlanks false cs
    else if c == '#' then behindBlanks true cs
    else c :: cs

/-- What counts next in a text. -/
def skip (f : Flags) (cs : List Char) : List Char :=
  if f.spaced then behindBlanks false cs else cs

/-- The next character that counts, as it is seen from in front of a hyphen: in a comment all but
blanks count. -/
def ahead? (f : Flags) (cs : List Char) : Option Char :=
  if f.spaced then
    match Blank.trimFront cs with
    | '#' :: comment => (Blank.trimFront comment).head? <|> cs.head?
    | rest => rest.head? <|> cs.head?
  else cs.head?

/-! ## Laws -/

/-- Behind blanks there is an end of the text. -/
theorem behindBlanks_suffix (comment : Bool) (cs : List Char) : behindBlanks comment cs <:+ cs := by
  induction cs generalizing comment with
  | nil => simp [behindBlanks]
  | cons c cs ih =>
    cases comment with
    | true => exact (ih _).trans (List.suffix_cons c cs)
    | false =>
      simp only [behindBlanks]
      split
      · exact (ih _).trans (List.suffix_cons c cs)
      · split
        · exact (ih _).trans (List.suffix_cons c cs)
        · exact List.suffix_refl _

/-- What counts next is an end of the text. -/
theorem skip_suffix (f : Flags) (cs : List Char) : f.skip cs <:+ cs := by
  unfold skip
  split
  · exact behindBlanks_suffix false cs
  · exact List.suffix_refl cs

end Flags

end IndexFeed.Log.Pattern
