import IndexFeed.Time.Span
import IndexFeed.Proofs.Number.Reread

/-!
# Spans of time and their seconds

A span is written as a number of seconds, which is rounded twice, and the reading of the number is rounded
again.  Up to `2 ^ 23` seconds the errors add up to less than half a nanosecond, so that the span comes
back (`reread_of_lt`).  Below `2 ^ 20` seconds the errors are bounded one by one.  From there on
the numbers are too far apart for that, but there the two roundings are one, and the digits of the span are
found and read exactly.
-/

set_option autoImplicit false

namespace IndexFeed.Span

open Binary64 (unitsPerOne unitsPerOne_pos unitsPerOne_cast_pos)

variable {s : Span} {x f : Binary64} {v w : ℚ}

/-! ## The seconds of a span -/

/-- The span as a number of nanoseconds. -/
def inNanos (s : Span) : Nat := s.seconds * perSecond + s.nanos

/-- The span as a number of seconds. -/
def inSeconds (s : Span) : ℚ := s.seconds + s.nanos / perSecond

theorem inSeconds_eq (s : Span) : s.inSeconds = s.inNanos / 10 ^ 9 := by
  rw [inSeconds, inNanos, perSecond]
  push_cast
  ring

/-- The last span below a whole number of seconds is a nanosecond below it. -/
theorem inSeconds_le {n : Nat} (h : s.seconds < n) : s.inSeconds ≤ n - 1 / 10 ^ 9 := by
  have hnanos := s.nanos_lt
  have hnext : s.inNanos + 1 ≤ n * 10 ^ 9 := by
    rw [inNanos, perSecond]
    omega
  have hnext : (s.inNanos : ℚ) + 1 ≤ n * 10 ^ 9 := by exact_mod_cast hnext
  rw [inSeconds_eq]
  linarith

theorem ofNanos?_inNanos (s : Span) : ofNanos? s.inNanos = some s := by
  have hnanos := s.nanos_lt
  have hseconds : s.inNanos / perSecond = s.seconds := by
    rw [inNanos, perSecond]
    omega
  have hrest : s.inNanos % perSecond = s.nanos := by
    rw [inNanos, perSecond]
    omega
  simp only [ofNanos?, hseconds, hrest, s.seconds_lt, ↓reduceDIte]

/-- A number that is nearer to a span than half a nanosecond is read as that span. -/
theorem ofFloat_of_near (hpos : x.negative = false)
    (h : |x.value - s.inSeconds| < 1 / (2 * 10 ^ 9)) : ofFloat x = .ok s := by
  have hone := unitsPerOne_cast_pos
  obtain ⟨hlow, hhigh⟩ := abs_lt.1 h
  rw [inSeconds_eq] at hlow hhigh
  have hrounds : Binary64.Rounds (x.units * perSecond) unitsPerOne s.inNanos := by
    rw [perSecond]
    refine .of_lt ?_ ?_
    · rw [← @Nat.cast_lt ℚ]
      push_cast
      rw [x.units_eq_value]
      have hmul := mul_lt_mul_of_pos_right hlow hone
      linarith
    · rw [← @Nat.cast_lt ℚ]
      push_cast
      rw [x.units_eq_value]
      have hmul := mul_lt_mul_of_pos_right hhigh hone
      linarith
  have hnanos := (Binary64.roundHalfEven_eq_iff unitsPerOne_pos).2 hrounds
  simp only [ofFloat, hpos, Bool.false_and, Bool.false_eq_true, ↓reduceIte, hnanos, ofNanos?_inNanos]

/-! ## The number of a span -/

/-- The fraction of a second is rounded to a number below one. -/
theorem exists_fraction (s : Span) : ∃ f, (Binary64.ofNat s.nanos).div (.ofNat perSecond) = some f ∧
    f.value < 1 ∧ |s.nanos / 10 ^ 9 - f.value| ≤ 2 ^ (-54 : Int) := by
  have hnanos := s.nanos_lt
  have hsecond : perSecond < 0x20000000000000 := by decide
  have hunits := (Binary64.units_ofNat hsecond).2
  have hpos : 0 < (Binary64.ofNat perSecond).units := by
    rw [hunits]
    exact Nat.mul_pos (by decide) unitsPerOne_pos
  obtain ⟨f, hf⟩ : ∃ f, (Binary64.ofNat s.nanos).div (.ofNat perSecond) = some f := by
    refine Option.isSome_iff_exists.1 (Binary64.nearest_isSome_of_le hpos ?_)
    rw [hunits, (Binary64.units_ofNat (by omega)).2]
    have hle : s.nanos ≤ perSecond := hnanos.le
    have hmany : 1 ≤ Nat.pow 10 308 := Binary64.powTen_le (Nat.zero_le 308)
    generalize Nat.pow 10 308 = p at hmany ⊢
    exact (Nat.mul_le_mul_right _ hle).trans (Nat.le_mul_of_pos_right _ hmany)
  obtain ⟨-, hholds⟩ := (Binary64.div_eq_some_iff hpos).1 hf
  rw [Binary64.value_ofNat (by omega), Binary64.value_ofNat hsecond] at hholds
  have hless : (s.nanos : ℚ) ≤ 999999999 := by exact_mod_cast Nat.le_of_lt_succ hnanos
  obtain ⟨hone, -, herror⟩ := hholds.of_lt_zpow (b := 0) (by decide) (by
    rw [perSecond]
    norm_num
    linarith)
  refine ⟨f, hf, by simpa using hone, ?_⟩
  rw [perSecond] at herror
  norm_num at herror ⊢
  exact herror

/-- The number of a span is that of its rounded seconds and its rounded fraction, rounded. -/
theorem toFloat_spec (s : Span) : s.toFloat.negative = false ∧ ∃ f : Binary64, f.value < 1 ∧
    |s.nanos / 10 ^ 9 - f.value| ≤ 2 ^ (-54 : Int) ∧
    (Binary64.ofNat s.seconds).add f = some s.toFloat ∧
    s.toFloat.Holds ((Binary64.ofNat s.seconds).value + f.value) := by
  obtain ⟨f, hf, hone, herror⟩ := s.exists_fraction
  have hbelow : f.units < unitsPerOne := by
    rw [Binary64.value, div_lt_one unitsPerOne_cast_pos] at hone
    exact_mod_cast hone
  have hseconds : 2 * s.seconds + 1 ≤ Nat.pow 10 308 :=
    Nat.le_trans (Nat.succ_le_succ (Nat.mul_le_mul_left 2 s.seconds_lt.le))
      (Nat.le_trans (by decide) (Binary64.powTen_le (k := 20) (by decide)))
  have hwhole : (Binary64.ofNat s.seconds).units ≤ 2 * (s.seconds * unitsPerOne) := by
    rcases Nat.eq_zero_or_pos s.seconds with hzero | hpos
    · rw [hzero, (Binary64.units_ofNat (by decide)).2, Nat.zero_mul]
    · have hle := Binary64.units_ofNat_le hpos (by omega)
      omega
  obtain ⟨x, hx⟩ : ∃ x, (Binary64.ofNat s.seconds).add f = some x := by
    refine Option.isSome_iff_exists.1 (Binary64.nearest_isSome_of_le unitsPerOne_pos ?_)
    have hmul := Nat.mul_le_mul_left unitsPerOne hseconds
    rw [Nat.mul_succ, Nat.mul_comm unitsPerOne, Nat.mul_assoc] at hmul
    omega
  obtain ⟨hsign, hholds⟩ := Binary64.add_eq_some_iff.1 hx
  have hsame : s.toFloat = x := by
    rw [toFloat, hf, Option.getD_some, hx, Option.getD_some]
  rw [hsame]
  exact ⟨hsign, f, hone, herror, hx, hholds⟩

/-- Seconds of 53 binary digits are exact. -/
theorem toFloat_near (h : s.seconds < 0x20000000000000) : s.toFloat.negative = false ∧
    ∃ v : ℚ, |s.inSeconds - v| ≤ 2 ^ (-54 : Int) ∧ (s.seconds : ℚ) ≤ v ∧ s.toFloat.Holds v := by
  obtain ⟨hsign, f, -, herror, -, hholds⟩ := s.toFloat_spec
  rw [Binary64.value_ofNat h] at hholds
  refine ⟨hsign, s.seconds + f.value, ?_, ?_, hholds⟩
  · rw [inSeconds, perSecond]
    norm_num at herror ⊢
    exact herror
  · have hnonneg : 0 ≤ f.value := div_nonneg (Nat.cast_nonneg _) unitsPerOne_cast_pos.le
    linarith

/-- The span that is read of the number of a span. -/
def reread (s : Span) : Except Json.Misfit Span := ofFloat s.toFloat.reread

/-! ## Spans up to `2 ^ 20` seconds -/

/-- The digits and all roundings together are off by less than half a nanosecond. -/
theorem reread_of_short (hpos : 0 < s.inNanos) (h : s.seconds < 0x100000) : s.reread = .ok s := by
  obtain ⟨hsign, v, hv, -, hholds⟩ := toFloat_near (s := s) (by omega)
  have hleast : 1 / 1000000000 ≤ s.inSeconds := by
    rw [inSeconds_eq]
    have hone : (1 : ℚ) ≤ s.inNanos := Nat.one_le_cast.2 hpos
    linarith
  have hmost := inSeconds_le h
  rw [reread]
  generalize s.toFloat = x at *
  norm_num at hv hmost
  obtain ⟨hvlow, hvhigh⟩ := abs_le.1 hv
  obtain ⟨hbound, hstep, herror⟩ := hholds.of_lt_zpow (b := 20) (by decide) (by
    norm_num
    linarith)
  norm_num at hstep herror hbound
  obtain ⟨hxlow, hxhigh⟩ := abs_le.1 herror
  have hvalue : 1 / 10 ^ 10 ≤ x.value := by linarith
  have hmantissa := Binary64.mantissa_pos (lt_of_lt_of_le (by norm_num) hvalue)
  obtain ⟨hdlow, hdhigh⟩ := abs_le.1 (Binary64.shortest_holds hmantissa).1.abs_sub_le
  obtain ⟨hnonneg, hread⟩ := Binary64.reread_near hsign hvalue (by linarith)
  obtain ⟨hrlow, hrhigh⟩ := abs_le.1 hread
  exact ofFloat_of_near hnonneg (abs_lt.2 ⟨by linarith, by linarith⟩)

/-! ## Spans from `2 ^ 20` to `2 ^ 23` seconds -/

/-- A number of nanoseconds is not near to the middle between two numbers with a step of at least
`2 ^ -32`, since its denominator has fewer twos. -/
theorem far_from_middle (n : Nat) {c : Int} (hc : c % 2 = 1) {h : Nat} (hmore : 9 < h) (hmost : h ≤ 33) :
    2 ^ (-54 : Int) < |(n : ℚ) / 10 ^ 9 - c / 2 ^ h| := by
  obtain ⟨j, rfl⟩ : ∃ j, h = 9 + (j + 1) := ⟨h - 10, by omega⟩
  have hodd : (n : Int) * 2 ^ (j + 1) - c * 5 ^ 9 ≠ 0 := by
    rw [pow_succ, ← mul_assoc]
    generalize (n : Int) * 2 ^ j = m
    omega
  have hone : (1 : ℚ) ≤ |(n : ℚ) * 2 ^ (j + 1) - c * 5 ^ 9| := by
    exact_mod_cast Int.one_le_abs hodd
  have hpower : (0 : ℚ) < 2 ^ (j + 1) := by positivity
  have hpower' : (2 : ℚ) ^ (j + 1) ≤ 2 ^ 24 := pow_le_pow_right₀ (by norm_num) (by omega)
  have hquotient : (n : ℚ) / 10 ^ 9 - c / 2 ^ (9 + (j + 1)) =
      (n * 2 ^ (j + 1) - c * 5 ^ 9) / (10 ^ 9 * 2 ^ (j + 1)) := by
    rw [pow_add, div_sub_div _ _ (by norm_num) (by positivity),
      div_eq_div_iff (by positivity) (by positivity)]
    ring
  rw [hquotient, abs_div, abs_of_pos (by positivity : (0 : ℚ) < 10 ^ 9 * 2 ^ (j + 1)),
    lt_div_iff₀ (by positivity)]
  refine lt_of_lt_of_le ?_ hone
  norm_num
  linarith

/-- What is within `2 ^ -54` of a number of nanoseconds lies on the same side of such a middle. -/
theorem side_of_middle {n : Nat} {c : Int} (hc : c % 2 = 1) {h : Nat} (hmore : 9 < h) (hmost : h ≤ 33)
    (hv : |(n : ℚ) / 10 ^ 9 - v| ≤ 2 ^ (-54 : Int)) :
    (c / 2 ^ h ≤ v → (c : ℚ) / 2 ^ h < n / 10 ^ 9) ∧ (v ≤ c / 2 ^ h → (n : ℚ) / 10 ^ 9 < c / 2 ^ h) := by
  have hfar := far_from_middle n hc hmore hmost
  have htiny : (0 : ℚ) ≤ 2 ^ (-54 : Int) := by positivity
  obtain ⟨hlow, hhigh⟩ := abs_le.1 hv
  constructor
  · intro hle
    refine lt_of_not_ge fun hge => hfar.not_ge (abs_le.2 ⟨by linarith, ?_⟩)
    exact (sub_nonpos.2 hge).trans htiny
  · intro hle
    refine lt_of_not_ge fun hge => hfar.not_ge (abs_le.2 ⟨?_, by linarith⟩)
    exact (neg_nonpos.2 htiny).trans (sub_nonneg.2 hge)

/-- A number of nanoseconds is not below a whole number of seconds by less than one. -/
theorem le_of_near_second {n m : Nat} (h : (m : ℚ) - 1 / 10 ^ 9 < n / 10 ^ 9) :
    (m : ℚ) ≤ n / 10 ^ 9 := by
  have hnext : (m : ℚ) * 10 ^ 9 < n + 1 := by linarith
  have hle : m * 10 ^ 9 ≤ n := Nat.le_of_lt_succ (by exact_mod_cast hnext)
  rw [le_div_iff₀ (by norm_num)]
  exact_mod_cast hle

/-- From `2 ^ 20` to `2 ^ 23` half a step is a fraction with few twos, and the numbers are even
multiples of it. -/
theorem exists_halfStep (hlow : 2 ^ (20 : Int) ≤ x.value) (hhigh : x.step ≤ 2 ^ (23 - 53 : Int)) :
    ∃ j : Nat, 9 < j ∧ j ≤ 33 ∧ x.step / 2 = 1 / 2 ^ j ∧ x.value = 2 * x.mantissa / 2 ^ j := by
  have hlow := Binary64.le_step_of_le_value hlow
  obtain ⟨j, hj, hmore, hmost⟩ : ∃ j : Nat, x.step / 2 = 1 / 2 ^ j ∧ 9 < j ∧ j ≤ 33 := by
    rw [x.step_eq] at hlow hhigh ⊢
    rw [zpow_le_zpow_iff_right₀ (by norm_num)] at hlow hhigh
    obtain ⟨j, hj⟩ : ∃ j : Nat, (x.scale : Int) - 1074 = 1 - j := ⟨1075 - x.scale, by omega⟩
    refine ⟨j, ?_, by omega, by omega⟩
    rw [hj, zpow_sub₀ (by norm_num), zpow_one, zpow_natCast]
    ring
  refine ⟨j, hmore, hmost, hj, ?_⟩
  rw [x.value_eq]
  linear_combination (2 * x.mantissa : ℚ) * hj

/-- From `2 ^ 20` seconds on the two roundings of a span are one. -/
theorem toFloat_holds (hleast : 0x100000 ≤ s.seconds) (h : s.seconds < 0x800000) :
    s.toFloat.Holds s.inSeconds := by
  obtain ⟨-, v, hv, hseconds, hholds⟩ := toFloat_near (s := s) (by omega)
  have hless := inSeconds_le h
  rw [inSeconds_eq] at *
  generalize s.toFloat = x at *
  obtain ⟨hvlow, hvhigh⟩ := abs_le.1 hv
  have hleast : (2 : ℚ) ^ (20 : Int) ≤ v := by
    refine le_trans ?_ hseconds
    exact_mod_cast hleast
  obtain ⟨-, hhigh, -⟩ := hholds.of_lt_zpow (b := 23) (by decide) (by
    norm_num at hvlow hless ⊢
    linarith)
  obtain ⟨j, hmore, hmost, hj, hvalue⟩ := exists_halfStep (hholds.le_value (by decide) hleast) hhigh
  obtain ⟨hin, hin'⟩ := hholds.le
  refine .of_lt ?_ ?_
  · by_cases hpower : x.mantissa = 0x10000000000000 ∧ 0 < x.scale
    · -- a power of two is a whole number of seconds
      obtain ⟨k, hk⟩ : ∃ k : Nat, x.value = (2 ^ k : Nat) := by
        refine ⟨53 - j, ?_⟩
        rw [hvalue, hpower.1, div_eq_iff (by positivity)]
        push_cast
        rw [← pow_add, Nat.sub_add_cancel (by omega)]
        norm_num
      have hgap := x.gapBelow_le
      refine lt_of_lt_of_le (sub_lt_self _ x.gapBelow_pos) ?_
      rw [hk] at hin ⊢
      norm_num at hvlow hhigh
      exact le_of_near_second (by linarith)
    · have hmiddle : ((2 * x.mantissa - 1 : Int) : ℚ) / 2 ^ j = x.value - x.gapBelow := by
        rw [hvalue, show x.gapBelow = x.step / 2 from if_neg hpower, hj]
        push_cast
        ring
      have hside := (side_of_middle (c := 2 * x.mantissa - 1) (by omega) hmore hmost hv).1
      rw [hmiddle] at hside
      exact hside hin
  · have hmiddle : ((2 * x.mantissa + 1 : Int) : ℚ) / 2 ^ j = x.value + x.step / 2 := by
      rw [hvalue, hj]
      push_cast
      ring
    have hside := (side_of_middle (c := 2 * x.mantissa + 1) (by omega) hmore hmost hv).2
    rw [hmiddle] at hside
    exact hside hin'

/-- The digits of the span are found, and are read exactly. -/
theorem reread_of_middle (hleast : 0x100000 ≤ s.seconds) (h : s.seconds < 0x800000) :
    s.reread = .ok s := by
  have hsign := s.toFloat_spec.1
  have hholds := toFloat_holds hleast h
  have hpos : 0 < s.inNanos := by
    rw [inNanos, perSecond]
    omega
  have hleast : 0x100000 ≤ s.inSeconds := by
    have hseconds : (0x100000 : ℚ) ≤ s.seconds := by exact_mod_cast hleast
    exact hseconds.trans (le_add_of_nonneg_right (by positivity))
  have hless := inSeconds_le h
  rw [reread]
  generalize s.toFloat = x at *
  norm_num at hless
  obtain ⟨hbound, hstep, herror⟩ := hholds.of_lt_zpow (b := 23) (by decide) (by
    norm_num
    linarith)
  norm_num at hbound hstep herror
  obtain ⟨hxlow, hxhigh⟩ := abs_le.1 herror
  have hsame : x.reread = x := by
    rw [inSeconds_eq] at hholds
    exact Binary64.reread_eq_self_of_holds hsign (by linarith) hbound hpos hholds
  rw [hsame]
  exact ofFloat_of_near hsign (abs_lt.2 ⟨by linarith, by linarith⟩)

/-! ## Both together -/

/-- **Every span below `2 ^ 23` seconds comes back from the number it is written as**, about ninety-seven
days. -/
theorem reread_of_lt (h : s.seconds < 0x800000) : s.reread = .ok s := by
  rcases Nat.lt_or_ge s.seconds 0x100000 with hfew | hmany
  · rcases Nat.eq_zero_or_pos s.inNanos with hzero | hpos
    · have hnanos := s.ofNanos?_inNanos
      rw [hzero] at hnanos
      obtain rfl : zero = s := Option.some.inj hnanos
      decide +kernel
    · exact reread_of_short hpos hfew
  · exact reread_of_middle hmany h

end IndexFeed.Span
