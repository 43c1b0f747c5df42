import IndexFeed.Json.Fault

/-!
# Spans of time

A span is a number of seconds of 64 bits and a number of nanoseconds below one second.  It is
written as a binary64 number of seconds, rounded, and read from one: the exact number is rounded
to whole nanoseconds, a half to the even one.
-/

set_option autoImplicit false

namespace IndexFeed

/-- A span of time. -/
structure Span where
  /-- whole seconds, below `2 ^ 64` -/
  seconds : Nat
  nanos : Nat
  seconds_lt : seconds < 0x10000000000000000
  nanos_lt : nanos < 1000000000
  deriving DecidableEq, Repr

namespace Span

/-- Nanoseconds in a second. -/
def perSecond : Nat := 1000000000

/-- A whole number of seconds; what does not fit 64 bits is cut off at the top. -/
def ofSeconds (n : Nat) : Span :=
  ⟨min n 0xffffffffffffffff, 0, by omega, by decide⟩

/-- No time at all. -/
def zero : Span := ofSeconds 0

instance : Inhabited Span := ⟨zero⟩

/-- The span with so many nanoseconds in all, if its seconds fit. -/
def ofNanos? (n : Nat) : Option Span :=
  if h : n / perSecond < 0x10000000000000000 then
    some ⟨n / perSecond, n % perSecond, h, Nat.mod_lt _ (by decide)⟩
  else none

/-- The seconds as binary64: the rounded sum of the rounded seconds and the rounded fraction. -/
def toFloat (s : Span) : Binary64 :=
  let fraction := ((Binary64.ofNat s.nanos).div (.ofNat perSecond)).getD .zero
  ((Binary64.ofNat s.seconds).add fraction).getD .largest

/-- The span of a binary64 number of seconds. -/
def ofFloat (x : Binary64) : Except Json.Misfit Span :=
  if x.negative && !x.isZero then .error .negativeSpan
  else
    let nanos := Binary64.roundHalfEven (x.units * perSecond) Binary64.unitsPerOne
    match ofNanos? nanos with
    | some s => .ok s
    | none => .error .hugeSpan

/-- The digits behind the point of `n / 10 ^ places`, without zeros at the end. -/
def fractionChars (places n : Nat) : List Char :=
  ((Decimal.padded places n).reverse.dropWhile (· == '0')).reverse

/-- A number with a fraction of so many places, and a unit. -/
def withUnit (whole fraction places : Nat) (unit : String) : String :=
  let digits := fractionChars places fraction
  if fraction = 0 then Decimal.text whole ++ unit
  else Decimal.text whole ++ "." ++ String.ofList digits ++ unit

/-- The text of a span, in the largest unit that is reached. -/
def text (s : Span) : String :=
  if 0 < s.seconds then withUnit s.seconds s.nanos 9 "s"
  else if 1000000 ≤ s.nanos then withUnit (s.nanos / 1000000) (s.nanos % 1000000) 6 "ms"
  else if 1000 ≤ s.nanos then withUnit (s.nanos / 1000) (s.nanos % 1000) 3 "µs"
  else withUnit s.nanos 0 0 "ns"

end Span

end IndexFeed
