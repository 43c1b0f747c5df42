import IndexFeed.Text.Printable
import IndexFeed.Octet

/-!
# Quoted text

The quoted form of a text in messages: between double quotes, with the quotes and the backslash
behind a backslash, letters for the common controls and numbers for all other characters that
have no printed form of their own.
-/

set_option autoImplicit false

namespace IndexFeed.Quoted

/-- The hexadecimal digits of a number, without leading zeros. -/
def hexChars (n : Nat) : List Char :=
  if n < 16 then [Octet.hexDigit n] else hexChars (n / 16) ++ [Octet.hexDigit (n % 16)]
termination_by n
decreasing_by omega

/-- A character by number. -/
def numbered (c : Char) : List Char :=
  ['\\', 'u', Char.ofNat 0x7b] ++ hexChars c.toNat ++ [Char.ofNat 0x7d]

/-- One character inside a quoted text. -/
def charForm (c : Char) : List Char :=
  if c == Char.ofNat 0 then ['\\', '0']
  else if c == '\t' then ['\\', 't']
  else if c == '\r' then ['\\', 'r']
  else if c == '\n' then ['\\', 'n']
  else if c == '\\' || c == '\"' then ['\\', c]
  else if Printable.isPrintable c then [c]
  else numbered c

/-- A quoted text. -/
def text (s : String) : String :=
  String.ofList (['\"'] ++ s.toList.flatMap charForm ++ ['\"'])

/-- A quoted path: like a quoted text, and the single quote stands behind a backslash too. -/
def path (s : String) : String :=
  String.ofList
    (['\"'] ++ s.toList.flatMap (fun c => if c == '\'' then ['\\', c] else charForm c) ++ ['\"'])

end IndexFeed.Quoted
