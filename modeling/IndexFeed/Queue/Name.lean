import IndexFeed.Queue.Error
import IndexFeed.Text.Utf8

/-!
# Queue names

The name of a queue is a slash and a bare name of at most 254 octets without slash and NUL.  The
slash may be left out where a name is given.
-/

set_option autoImplicit false

namespace IndexFeed.Queue

/-- The most octets of a bare name. -/
def longestBareName : Nat := 254

/-- A name without one slash in front. -/
def bareName : List Char → List Char
  | '/' :: r => r
  | cs => cs

/-- A bare name that a queue may have. -/
def isBareName (cs : List Char) : Bool :=
  !cs.isEmpty && (Utf8.encodeChars cs).length ≤ longestBareName
    && !cs.contains '/' && !cs.contains (Char.ofNat 0)

/-- The name with its slash. -/
def normalize (name : String) : Except Error String :=
  let bare := bareName name.toList
  if isBareName bare then .ok (String.ofList ('/' :: bare)) else .error (.invalidName name)

end IndexFeed.Queue
