import IndexFeed.Json.Decoder

/-!
# Numbers in JSON text

The digits of a number are gathered into a significand of 64 bits and a power of ten.  Digits that
do not fit the significand are dropped; those in front of the point raise the power.  A number
without point and exponent whose significand lost no digit is an integer if it fits 64 bits.  All
others are the significand, rounded to binary64, times or divided by the power, rounded.
-/

set_option autoImplicit false

namespace IndexFeed.Json

/-! ## Values -/

/-- Appends digits to a significand as long as it stays below the limit; also the number of digits
appended. -/
def absorb (limit s : Nat) : Bytes → Nat × Nat
  | [] => (s, 0)
  | d :: r =>
    let s' := s * 10 + Octet.digitValue d
    if s' < limit then
      let (t, used) := absorb limit s' r
      (t, used + 1)
    else (s, 0)

/-- A number divided by a power of ten, in steps of at most 308 places; a quotient that has become
zero stays zero. -/
def scaleDown (x : Binary64) (places : Nat) : Option Binary64 :=
  if places ≤ 308 then x.div (.powTen places)
  else if x.isZero then some x
  else (x.div (.powTen 308)).bind fun y => scaleDown y (places - 308)
termination_by places
decreasing_by omega

/-- The magnitude of `s * 10 ^ e`, unless it is out of range. -/
def magnitude? (s : Nat) (e : Int) : Option Binary64 :=
  let x := Binary64.ofNat s
  if 0 ≤ e then
    if e ≤ 308 then x.mul (.powTen e.toNat)
    else if x.isZero then some x
    else none
  else scaleDown x e.natAbs

/-- A magnitude with a sign. -/
def Number.signed (negative : Bool) (x : Binary64) : Number :=
  .float (if negative then x.neg else x)

/-- The number of a significand without point and exponent.  Zero with a minus sign is a float, and
so is whatever lies below the integers of 64 bits. -/
def Number.whole (negative : Bool) (s : Nat) : Number :=
  if negative then
    if h : 0 < s ∧ s ≤ 0x8000000000000000 then .integer (-(s : Int)) (by omega) (by omega)
    else .signed true (.ofNat s)
  else if h : s < 0x10000000000000000 then .integer (s : Int) (by omega) (by omega)
  else .signed false (.ofNat s)

/-! ## Reading -/

namespace Cursor

/-- The digits at the cursor. -/
def digits (c : Cursor) : Bytes := c.rest.takeWhile Octet.isDigit

/-- The next octet is an exponent letter. -/
def atExponent (c : Cursor) : Bool :=
  match c.rest with
  | b :: _ => b == Octet.letterE || b == Octet.capitalE
  | [] => false

theorem le_advance_digits (c : Cursor) : c ≤ c.advance c.digits.length :=
  c.le_advance_takeWhile _

theorem lt_advance_digits {c : Cursor} {b : UInt8} {r : Bytes} (h : c.rest = b :: r)
    (hb : Octet.isDigit b = true) : c < c.advance c.digits.length :=
  lt_advance (by simp [digits, h, hb]) (List.takeWhile_sublist _).length_le

theorem lt_advance_of_atExponent {c : Cursor} (h : c.atExponent = true) : c < c.advance 1 := by
  unfold atExponent at h
  split at h
  · exact lt_advance_one ‹_›
  · cases h

end Cursor

/-- The number of a significand and a power of ten. -/
def finishNumber (negative : Bool) (s : Nat) (e : Int) (c : Cursor) : Outcome Number :=
  match magnitude? s e with
  | some x => .ok (.signed negative x, c)
  | none => .error (c.besideLook .numberOutOfRange)

/-- The sign of an exponent, and the cursor behind it. -/
def exponentSign (c : Cursor) : Bool × Cursor :=
  match c.rest with
  | b :: _ =>
    if b = Octet.plus then (false, c.advance 1)
    else if b = Octet.minus then (true, c.advance 1)
    else (false, c)
  | [] => (false, c)

/-- The exponent behind its letter.  An exponent beyond 31 bits is out of range, or makes zero. -/
def readExponent (negative : Bool) (s : Nat) (e : Int) (c : Cursor) : Outcome Number :=
  let (down, c) := exponentSign c
  match c.rest with
  | [] => .error (c.behind .endInValue)
  | b :: _ =>
    if !Octet.isDigit b then .error ((c.advance 1).behind .invalidNumber)
    else
      let ds := c.digits
      let (places, used) := absorb 0x80000000 0 ds
      if used < ds.length then
        if s ≠ 0 ∧ !down then .error ((c.advance (used + 1)).behind .numberOutOfRange)
        else .ok (.signed negative .zero, c.advance ds.length)
      else
        finishNumber negative s (if down then e - (places : Int) else e + (places : Int))
          (c.advance ds.length)

/-- The digits behind the point, of which there is at least one. -/
def readFraction (negative : Bool) (s : Nat) (e : Int) (c : Cursor) : Outcome Number :=
  let ds := c.digits
  if ds.isEmpty then
    .error (c.ahead (if c.rest.isEmpty then .endInValue else .invalidNumber))
  else
    let (t, used) := absorb 0x10000000000000000 s ds
    let c := c.advance ds.length
    if c.atExponent then readExponent negative t (e - (used : Int)) (c.advance 1)
    else finishNumber negative t (e - (used : Int)) c

/-- What follows the digits in front of the point. -/
def readScale (negative : Bool) (ds : Bytes) (c : Cursor) : Outcome Number :=
  let (s, used) := absorb 0x10000000000000000 0 ds
  let e : Int := ((ds.length - used : Nat) : Int)
  match c.rest with
  | b :: _ =>
    if b = Octet.point then readFraction negative s e (c.advance 1)
    else if c.atExponent then readExponent negative s e (c.advance 1)
    else if used < ds.length then finishNumber negative s e c
    else .ok (.whole negative s, c)
  | [] => if used < ds.length then finishNumber negative s e c else .ok (.whole negative s, c)

/-- A number behind its sign: no zero in front of another digit. -/
def readNumber (negative : Bool) (c : Cursor) : Outcome Number :=
  match c.rest with
  | [] => .error (c.behind .endInValue)
  | b :: r =>
    if !Octet.isDigit b then .error ((c.advance 1).behind .invalidNumber)
    else if b = Octet.zero then
      if (r.head?.map Octet.isDigit).getD false then .error ((c.advance 1).ahead .invalidNumber)
      else readScale negative [b] (c.advance 1)
    else readScale negative c.digits (c.advance c.digits.length)

/-! ## No octet is given back -/

theorem finishNumber_le {negative : Bool} {s : Nat} {e : Int} {c d : Cursor} {n : Number}
    (h : finishNumber negative s e c = .ok (n, d)) : c ≤ d := by
  unfold finishNumber at h
  split at h
  · cases h
    exact c.le_refl
  · cases h

theorem exponentSign_le (c : Cursor) : c ≤ (exponentSign c).2 := by
  unfold exponentSign
  split
  · next hr =>
    split
    · exact Cursor.le_of_lt (Cursor.lt_advance_one hr)
    · split
      · exact Cursor.le_of_lt (Cursor.lt_advance_one hr)
      · exact c.le_refl
  · exact c.le_refl

theorem readExponent_le {negative : Bool} {s : Nat} {e : Int} {c d : Cursor} {n : Number}
    (h : readExponent negative s e c = .ok (n, d)) : c ≤ d := by
  have hs := exponentSign_le c
  unfold readExponent at h
  generalize exponentSign c = signed at h hs
  obtain ⟨down, c₁⟩ := signed
  have hd := Cursor.le_trans hs c₁.le_advance_digits
  dsimp only at h
  split at h
  · cases h
  · split at h
    · cases h
    · split at h
      · split at h
        · cases h
        · cases h
          exact hd
      · exact Cursor.le_trans hd (finishNumber_le h)

theorem readFraction_le {negative : Bool} {s : Nat} {e : Int} {c d : Cursor} {n : Number}
    (h : readFraction negative s e c = .ok (n, d)) : c ≤ d := by
  have hd := c.le_advance_digits
  unfold readFraction at h
  dsimp only at h
  split at h
  · cases h
  · split at h
    · next he =>
      exact Cursor.le_trans hd (Cursor.le_trans
        (Cursor.le_of_lt (Cursor.lt_advance_of_atExponent he)) (readExponent_le h))
    · exact Cursor.le_trans hd (finishNumber_le h)

theorem readScale_le {negative : Bool} {ds : Bytes} {c d : Cursor} {n : Number}
    (h : readScale negative ds c = .ok (n, d)) : c ≤ d := by
  unfold readScale at h
  dsimp only at h
  split at h
  · next hr =>
    have hc := Cursor.le_of_lt (Cursor.lt_advance_one hr)
    split at h
    · exact Cursor.le_trans hc (readFraction_le h)
    · split at h
      · exact Cursor.le_trans hc (readExponent_le h)
      · split at h
        · exact finishNumber_le h
        · cases h
          exact c.le_refl
  · split at h
    · exact finishNumber_le h
    · cases h
      exact c.le_refl

theorem readNumber_lt {negative : Bool} {c d : Cursor} {n : Number}
    (h : readNumber negative c = .ok (n, d)) : c < d := by
  unfold readNumber at h
  split at h
  · cases h
  · next b r hr =>
    split at h
    · cases h
    · next hb =>
      split at h
      · split at h
        · cases h
        · exact Cursor.lt_of_lt_of_le (Cursor.lt_advance_one hr) (readScale_le h)
      · exact Cursor.lt_of_lt_of_le (Cursor.lt_advance_digits hr (by simpa using hb))
          (readScale_le h)

/-! ## Decoders -/

namespace Decoder

/-- A number that starts with a digit, which has been looked at. -/
def digitNumber : Decoder Number := ⟨readNumber false, readNumber_lt⟩

/-- A number that starts with a minus sign, which has been looked at. -/
def minusNumber : Decoder Number :=
  afterHead (readNumber true) fun h => Cursor.le_of_lt (readNumber_lt h)

end Decoder

end IndexFeed.Json
