import IndexFeed.Number.Binary64
import IndexFeed.Text.Decimal

/-!
# Shortest decimal text of a number

The shortest decimal digits that read back as a given binary64 number, and the text made of them.

`Binary64.shortest` looks at the decimal grids with one digit, two digits and so on.  On each it
tests the two neighbours of the number; the first grid with a neighbour inside the interval of
reals that round to the number wins, of two such neighbours the nearer, of two equally near the
one with the even last digit.
-/

set_option autoImplicit false

namespace IndexFeed

/-- The decimal number `digits * 10 ^ exponent`. -/
structure DecimalForm where
  digits : Nat
  exponent : Int
  deriving DecidableEq, Repr, Inhabited

namespace Binary64

/-! ## The interval of reals that round to a number

Everything here is in quarters of a unit, so that the interval has whole ends. -/

/-- The magnitude. -/
def centre (x : Binary64) : Nat := 4 * x.units

/-- The lower end: half the distance to the number below, which is a smaller distance at a power
of two. -/
def lowerEnd (x : Binary64) : Nat :=
  if x.mantissa = 0x10000000000000 ∧ 0 < x.scale then x.centre - Nat.pow 2 x.scale
  else x.centre - 2 * Nat.pow 2 x.scale

/-- The upper end: half the distance to the number above. -/
def upperEnd (x : Binary64) : Nat := x.centre + 2 * Nat.pow 2 x.scale

/-- One, in quarters of a unit. -/
def quartersPerOne : Nat := 4 * unitsPerOne

/-- `n / d` quarters lie in the interval; the ends belong to it if the mantissa is even. -/
def readsBack (x : Binary64) (n d : Nat) : Bool :=
  if x.mantissa % 2 = 0 then x.lowerEnd * d ≤ n && n ≤ x.upperEnd * d
  else x.lowerEnd * d < n && n < x.upperEnd * d

/-- The quarters of a unit in `digits * 10 ^ exponent`, as a quotient. -/
def DecimalForm.quarters (f : DecimalForm) : Nat × Nat :=
  if 0 ≤ f.exponent then (f.digits * Nat.pow 10 f.exponent.toNat * quartersPerOne, 1)
  else (f.digits * quartersPerOne, Nat.pow 10 f.exponent.natAbs)

/-- The largest `e` with `10 ^ e ≤ n / d`, searched downwards from `e`. -/
def floorLogTen (n d : Nat) : Nat → Int → Int
  | 0, e => e
  | fuel + 1, e =>
    let reached := if 0 ≤ e then Nat.pow 10 e.toNat * d ≤ n else d ≤ n * Nat.pow 10 e.natAbs
    if reached then e else floorLogTen n d fuel (e - 1)

/-- The place of the leading decimal digit of a positive number: the largest `e` such that
`10 ^ e` is at most the number. -/
def leadingPlace (x : Binary64) : Int := floorLogTen x.units unitsPerOne 700 309

/-- The best of the two neighbours with the given exponent, if one of them reads back. -/
def onGrid (x : Binary64) (exponent : Int) : Option DecimalForm :=
  let below : Nat :=
    if 0 ≤ exponent then x.units / (unitsPerOne * Nat.pow 10 exponent.toNat)
    else x.units * Nat.pow 10 exponent.natAbs / unitsPerOne
  let low : DecimalForm := ⟨below, exponent⟩
  let high : DecimalForm := ⟨below + 1, exponent⟩
  let (lowN, lowD) := DecimalForm.quarters low
  let (highN, highD) := DecimalForm.quarters high
  let lowFits := 0 < below && x.readsBack lowN lowD
  let highFits := x.readsBack highN highD
  if lowFits && highFits then
    let gapBelow := x.centre * lowD - lowN
    let gapAbove := highN - x.centre * highD
    if gapBelow < gapAbove then some low
    else if gapAbove < gapBelow then some high
    else some (if below % 2 = 0 then low else high)
  else if lowFits then some low
  else if highFits then some high
  else none

/-- Removes the zeros at the end of the digits. -/
def dropZeros : Nat → DecimalForm → DecimalForm
  | 0, f => f
  | fuel + 1, f =>
    if f.digits % 10 = 0 ∧ 0 < f.digits then dropZeros fuel ⟨f.digits / 10, f.exponent + 1⟩ else f

/-- The shortest digits of a positive number. -/
def shortest (x : Binary64) : DecimalForm :=
  let place := x.leadingPlace
  let found := (List.range 17).findSome? fun (k : Nat) => x.onGrid (place - (k : Int))
  dropZeros 20 (found.getD ⟨0, 0⟩)

/-! ## Text -/

/-- How the digits are laid out: the decimal exponents that are written without an exponent, and
the digits after the point of a whole number. -/
structure Layout where
  leastPlain : Int
  greatestPlain : Int
  wholeSuffix : List Char
  positiveExponentSign : List Char
  deriving DecidableEq, Repr

/-- Numbers of messages: plain from `1e-5` up to `1e15`, whole ones with `.0`, all others with an
exponent that carries its sign. -/
def Layout.message : Layout := ⟨-5, 15, ['.', '0'], ['+']⟩

/-- Puts a point behind the first digit, unless it is the only one. -/
def pointAfterFirst : List Char → List Char
  | [] => []
  | [d] => [d]
  | d :: r => d :: '.' :: r

/-- The text of a number in a layout. -/
def charsIn (l : Layout) (x : Binary64) : List Char :=
  let sign := if x.negative then ['-'] else []
  if x.isZero then sign ++ ['0'] ++ l.wholeSuffix
  else
    let f := x.shortest
    let ds := Decimal.chars f.digits
    let place : Int := f.exponent + ds.length - 1
    sign ++
      if place < l.leastPlain ∨ l.greatestPlain < place then
        pointAfterFirst ds ++ ['e'] ++ (if place < 0 then ['-'] else l.positiveExponentSign)
          ++ Decimal.chars place.natAbs
      else if 0 ≤ f.exponent then ds ++ List.replicate f.exponent.toNat '0' ++ l.wholeSuffix
      else if 0 ≤ place then
        ds.take (place.toNat + 1) ++ ['.'] ++ ds.drop (place.toNat + 1)
      else ['0', '.'] ++ List.replicate (place.natAbs - 1) '0' ++ ds

/-- The text of a number in messages and in JSON. -/
def chars (x : Binary64) : List Char := x.charsIn .message

end Binary64

end IndexFeed
