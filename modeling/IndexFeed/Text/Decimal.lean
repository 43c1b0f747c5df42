/-!
# Decimal numerals

Natural numbers as decimal digits, and the reading of a numeral into a bounded range of integers:
an optional sign and at least one digit, nothing else.  Of numerals with a point or an exponent
only the form is told.
-/

set_option autoImplicit false

namespace IndexFeed.Decimal

/-- The digit that stands for a value below ten. -/
def digit (n : Nat) : Char := Char.ofNat (0x30 + n)

/-- The decimal digits of a number, most significant first. -/
def chars (n : Nat) : List Char :=
  if n < 10 then [digit n] else chars (n / 10) ++ [digit (n % 10)]
termination_by n
decreasing_by omega

/-- A number in decimal. -/
def text (n : Nat) : String := String.ofList (chars n)

/-- An integer in decimal, with a minus sign in front if it is negative. -/
def signed (i : Int) : String :=
  if i < 0 then "-" ++ text i.natAbs else text i.natAbs

/-- The number that a list of digits writes, if all are digits. -/
def value? (cs : List Char) : Option Nat :=
  cs.foldlM (fun n c => if c.isDigit then some (n * 10 + (c.toNat - 0x30)) else none) 0

/-- At least one digit. -/
def unsigned? (cs : List Char) : Option Nat :=
  if cs.isEmpty then none else value? cs

/-- The natural number below `bound` that a text writes; a plus sign may stand in front. -/
def nat? (bound : Nat) (s : String) : Option Nat :=
  let digits := match s.toList with
    | '+' :: r => r
    | cs => cs
  (unsigned? digits).filter (· < bound)

/-- The integer that a text writes; a sign may stand in front. -/
def int? (s : String) : Option Int :=
  match s.toList with
  | '-' :: r => (unsigned? r).map fun n => -(n : Int)
  | '+' :: r => (unsigned? r).map Int.ofNat
  | cs => (unsigned? cs).map Int.ofNat

/-- A text without a sign in front. -/
def unsign : List Char → List Char
  | '+' :: r | '-' :: r => r
  | cs => cs

/-- At least one digit, and nothing else. -/
def isDigits (cs : List Char) : Bool := !cs.isEmpty && cs.all Char.isDigit

/-- What may follow the digits of a number: nothing or an exponent. -/
def isExponent : List Char → Bool
  | [] => true
  | c :: r => (c == 'e' || c == 'E') && isDigits (unsign r)

/-- A number without a sign: digits, a point in front of them, among them or behind them, and an
exponent. -/
def isUnsignedNumber (cs : List Char) : Bool :=
  let whole := cs.takeWhile Char.isDigit
  match cs.dropWhile Char.isDigit with
  | '.' :: r =>
    !(whole.isEmpty && (r.takeWhile Char.isDigit).isEmpty) && isExponent (r.dropWhile Char.isDigit)
  | r => !whole.isEmpty && isExponent r

/-- The words for what is not a finite number. -/
def boundless : List String := ["inf", "infinity", "nan"]

/-- A number, or a word for what is none. -/
def isNumber (cs : List Char) : Bool :=
  let cs := unsign cs
  isUnsignedNumber cs || boundless.contains (String.ofList (cs.map Char.toLower))

/-- Numbers with a point at either end, and what only looks like one. -/
example :
    isNumber "+.5e-3".toList = true ∧ isNumber "7.".toList = true ∧ isNumber "-Inf".toList = true ∧
      isNumber ['.'] = false ∧ isNumber "1e".toList = false := by
  decide +kernel

/-- `n` zeros and the digits of `v` after them, together `width` digits. -/
def padded (width v : Nat) : List Char :=
  let ds := chars v
  List.replicate (width - ds.length) '0' ++ ds

end IndexFeed.Decimal
