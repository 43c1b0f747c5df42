/-!
# Octets

Octet strings and the classes of octets that JSON text is made of.  An octet that stands for an
ASCII character has that character's name.
-/

set_option autoImplicit false

namespace IndexFeed

/-- A string of octets. -/
abbrev Bytes : Type := List UInt8

namespace Octet

/-! ## Named octets -/

def tab : UInt8 := 0x09
def lineFeed : UInt8 := 0x0a
def carriageReturn : UInt8 := 0x0d
def space : UInt8 := 0x20
def quote : UInt8 := 0x22
def plus : UInt8 := 0x2b
def comma : UInt8 := 0x2c
def minus : UInt8 := 0x2d
def point : UInt8 := 0x2e
def zero : UInt8 := 0x30
def nine : UInt8 := 0x39
def colon : UInt8 := 0x3a
def openBracket : UInt8 := 0x5b
def backslash : UInt8 := 0x5c
def closeBracket : UInt8 := 0x5d
def letterE : UInt8 := 0x65
def capitalE : UInt8 := 0x45
def letterF : UInt8 := 0x66
def letterN : UInt8 := 0x6e
def letterT : UInt8 := 0x74
def letterU : UInt8 := 0x75
def openBrace : UInt8 := 0x7b
def closeBrace : UInt8 := 0x7d

/-! ## Classes -/

/-- The blanks of JSON text: space, line feed, carriage return and tab. -/
def isBlank (b : UInt8) : Bool :=
  b == space || b == lineFeed || b == carriageReturn || b == tab

/-- A decimal digit. -/
def isDigit (b : UInt8) : Bool := zero ≤ b && b ≤ nine

/-- The value of a decimal digit. -/
def digitValue (b : UInt8) : Nat := b.toNat - 0x30

/-- The value of a hexadecimal digit of either case. -/
def hexValue? (b : UInt8) : Option Nat :=
  if isDigit b then some (b.toNat - 0x30)
  else if 0x61 ≤ b && b ≤ 0x66 then some (b.toNat - 0x57)
  else if 0x41 ≤ b && b ≤ 0x46 then some (b.toNat - 0x37)
  else none

/-- The number that four hexadecimal digits write. -/
def hexQuad? (a b c d : UInt8) : Option Nat := do
  let a ← hexValue? a
  let b ← hexValue? b
  let c ← hexValue? c
  let d ← hexValue? d
  return ((a * 16 + b) * 16 + c) * 16 + d

/-- The lower-case hexadecimal digit of a value below sixteen. -/
def hexDigit (n : Nat) : Char :=
  if n < 10 then Char.ofNat (0x30 + n) else Char.ofNat (0x57 + n)

/-- The printed form of one octet in a message: printable ASCII as it is, the two quotes, the
backslash, tab, line feed and carriage return behind a backslash, all else as `\x` and two
hexadecimal digits. -/
def escaped (b : UInt8) : String :=
  if b == tab then "\\t"
  else if b == carriageReturn then "\\r"
  else if b == lineFeed then "\\n"
  else if b == 0x27 then "\\'"
  else if b == quote then "\\\""
  else if b == backslash then "\\\\"
  else if 0x20 ≤ b && b ≤ 0x7e then String.singleton (Char.ofNat b.toNat)
  else String.ofList ['\\', 'x', hexDigit (b.toNat / 16), hexDigit (b.toNat % 16)]

end Octet

end IndexFeed
