/-!
# Binary floating point

Finite numbers of the IEEE format binary64, in exact arithmetic on natural numbers.

A magnitude is a whole number of *units* of `2 ^ -1074`, the smallest positive number of the
format.  `Binary64.nearest` rounds a quotient to the format, a half to the even neighbour, and
every operation is the exact result rounded once.
-/

set_option autoImplicit false

namespace IndexFeed

/-- A finite binary64 number: `mantissa * 2 ^ scale` units, with a sign.  The mantissa is below
`2 ^ 53`, and it is at least `2 ^ 52` unless the scale is zero, so that each number has one
form. -/
structure Binary64 where
  negative : Bool
  mantissa : Nat
  scale : Nat
  mantissa_lt : mantissa < 0x20000000000000
  scale_le : scale ≤ 2045
  leading : 0x10000000000000 ≤ mantissa ∨ scale = 0
  deriving DecidableEq, Repr

namespace Binary64

/-- Positive zero. -/
def zero : Binary64 := ⟨false, 0, 0, by decide, by decide, .inr rfl⟩

instance : Inhabited Binary64 := ⟨zero⟩

/-- The largest finite number. -/
def largest : Binary64 := ⟨false, 0x1fffffffffffff, 2045, by decide, by decide, .inl (by decide)⟩

/-- The magnitude in units of `2 ^ -1074`. -/
def units (x : Binary64) : Nat := x.mantissa * Nat.pow 2 x.scale

/-- One, in units. -/
def unitsPerOne : Nat := Nat.pow 2 1074

/-- The same magnitude with the other sign. -/
def neg (x : Binary64) : Binary64 := { x with negative := !x.negative }

/-- Either zero. -/
def isZero (x : Binary64) : Bool := x.mantissa == 0

/-! ## Rounding -/

/-- The whole number nearest to `n / d`, the even one of two equally near. -/
def roundHalfEven (n d : Nat) : Nat :=
  let q := n / d
  let r := n % d
  if 2 * r < d then q else if d < 2 * r then q + 1 else q + q % 2

/-- A number of units with a mantissa of at most `2 ^ 53`, brought to its one form. -/
def ofParts? (mantissa scale : Nat) : Option Binary64 :=
  if h : mantissa < 0x20000000000000 then
    if hs : scale ≤ 2045 then
      if hl : 0x10000000000000 ≤ mantissa ∨ scale = 0 then
        some ⟨false, mantissa, scale, h, hs, hl⟩
      else none
    else none
  else if hs : scale + 1 ≤ 2045 then
    some ⟨false, 0x10000000000000, scale + 1, by decide, hs, .inl (by decide)⟩
  else none

/-- The number nearest to `n / d`, unless that is beyond the largest one. -/
def nearest (n d : Nat) : Option Binary64 :=
  let whole := n * unitsPerOne / d
  let scale := whole.log2 - 52
  ofParts? (roundHalfEven (n * unitsPerOne) (d * Nat.pow 2 scale)) scale

/-- The number nearest to `n`, or the largest one if that is beyond it. -/
def ofNat (n : Nat) : Binary64 := (nearest n 1).getD largest

/-! ## Arithmetic on magnitudes -/

/-- The rounded product of two magnitudes. -/
def mul (x y : Binary64) : Option Binary64 :=
  nearest (x.units * y.units) (unitsPerOne * unitsPerOne)

/-- The rounded quotient of two magnitudes. -/
def div (x y : Binary64) : Option Binary64 := nearest x.units y.units

/-- The rounded sum of two magnitudes. -/
def add (x y : Binary64) : Option Binary64 := nearest (x.units + y.units) unitsPerOne

/-- Ten to the power `e`, rounded. -/
def powTen (e : Nat) : Binary64 := ofNat (Nat.pow 10 e)

/-! ## Bits -/

/-- The 64 bits of the interchange format, read as a number: from the top the sign, the scale and
the mantissa, whose leading bit at place 52 is not written. -/
def bits (x : Binary64) : Nat :=
  let leadingBit := 0x10000000000000
  (if x.negative then 0x8000000000000000 else 0) +
    (if x.mantissa < leadingBit then x.mantissa
      else (x.scale + 1) * leadingBit + (x.mantissa - leadingBit))

end Binary64

end IndexFeed
