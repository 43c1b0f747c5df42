import IndexFeed.Proofs.Time.Seconds

/-!
# Long spans of time

From `2 ^ 23` seconds on several spans are written as one number, so that not every span comes back.  What
comes back is off by less than one part in `2 ^ 50` (`exists_reread`).  Only the last spans are rounded up
to `2 ^ 64` seconds, which are no span, and are refused (`reread_of_le`).
-/

set_option autoImplicit false

namespace IndexFeed

variable {s : Span} {x : Binary64}

/-! ## Numbers up to `2 ^ 64` -/

namespace Binary64

/-- The last numbers below `2 ^ 64`. -/
def nearTop (i : Fin 16) : Binary64 :=
  ⟨false, 0x1ffffffffffff0 + i, 1085, by omega, by decide, .inl (by omega)⟩

theorem reread_nearTop (i : Fin 16) :
    (nearTop i).reread.units < 0x10000000000000000 * unitsPerOne := by
  revert i
  decide +kernel

theorem exists_nearTop (hpos : x.negative = false) (hscale : x.scale = 1085)
    (hm : 0x1ffffffffffff0 ≤ x.mantissa) : ∃ i, x = nearTop i := by
  obtain ⟨negative, m, k, hlt, hle, hlead⟩ := x
  dsimp only at hpos hscale hm
  subst hpos hscale
  obtain ⟨i, rfl⟩ := Nat.exists_eq_add_of_le hm
  exact ⟨⟨i, by omega⟩, rfl⟩

/-- The text of a number below `2 ^ 64` is not read as `2 ^ 64`. -/
theorem reread_lt (hpos : x.negative = false) (hleast : 1 / 10 ^ 10 ≤ x.value)
    (h : x.value < 2 ^ (64 : Int)) : x.reread.value < 2 ^ (64 : Int) := by
  have hstep := step_le_of_value_lt (by decide) h
  by_cases htop : x.value < 2 ^ (64 : Int) - 2 ^ (15 : Int)
  · norm_num at hstep htop ⊢
    have hmantissa := mantissa_pos (lt_of_lt_of_le (by norm_num) hleast)
    have hdigits := (shortest_holds hmantissa).1.le.2
    obtain ⟨-, hread⟩ := reread_near hpos hleast (by linarith)
    obtain ⟨-, hhigh⟩ := abs_le.1 hread
    linarith
  · -- an estimate is too coarse for the last numbers, but they are few
    have hstep' := le_step_of_le_value (x := x) (b := 63) (by norm_num at htop ⊢; linarith)
    have hvalue := x.value_eq
    rw [x.step_eq] at hstep hstep' hvalue
    rw [zpow_le_zpow_iff_right₀ (by norm_num)] at hstep hstep'
    have hscale : x.scale = 1085 := by omega
    rw [hscale] at hvalue
    norm_num at hvalue htop
    have hm : (0x1ffffffffffff0 : ℚ) ≤ x.mantissa := by linarith
    obtain ⟨i, rfl⟩ := exists_nearTop hpos hscale (by exact_mod_cast hm)
    have hbound : (2 : ℚ) ^ (64 : Int) = (0x10000000000000000 : Nat) := by norm_num
    rw [value, div_lt_iff₀ unitsPerOne_cast_pos, hbound, ← Nat.cast_mul]
    exact Nat.cast_lt.2 (reread_nearTop i)

/-- `2 ^ 64`. -/
def beyondSpans : Binary64 := ofNat 0x10000000000000000

theorem beyondSpans_parts : beyondSpans.negative = false ∧ beyondSpans.mantissa = 0x10000000000000 ∧
    beyondSpans.scale = 1086 := by
  decide +kernel

theorem step_beyondSpans : beyondSpans.step = 2 ^ 12 := by
  rw [step_eq, beyondSpans_parts.2.2, show ((1086 : Nat) : Int) - 1074 = (12 : Nat) from rfl, zpow_natCast]

theorem value_beyondSpans : beyondSpans.value = 2 ^ 64 := by
  rw [value_eq, step_beyondSpans, beyondSpans_parts.2.1]
  norm_num

/-- The interval of `2 ^ 64`, with its ends. -/
theorem holds_beyondSpans {v : ℚ} (hlow : 2 ^ 64 - 2 ^ 10 ≤ v) (hhigh : v ≤ 2 ^ 64 + 2 ^ 11) :
    beyondSpans.Holds v := by
  obtain ⟨-, hmantissa, hscale⟩ := beyondSpans_parts
  have hgap : beyondSpans.gapBelow = beyondSpans.step / 4 :=
    if_pos ⟨hmantissa, hscale.symm ▸ Nat.succ_pos 1085⟩
  rw [holds_iff, if_pos (by rw [hmantissa]), hgap, step_beyondSpans, value_beyondSpans]
  exact ⟨by linarith, by linarith⟩

end Binary64

/-! ## Spans -/

namespace Span

open Binary64 (unitsPerOne unitsPerOne_pos unitsPerOne_cast_pos)

theorem exists_ofNanos? {n : Nat} (h : n / perSecond < 0x10000000000000000) :
    ∃ t, ofNanos? n = some t ∧ t.inNanos = n := by
  rw [ofNanos?, dif_pos h]
  exact ⟨_, rfl, Nat.div_add_mod' n perSecond⟩

/-- A number below `2 ^ 64` is read as a span, to the nearest nanosecond. -/
theorem exists_ofFloat (hpos : x.negative = false) (h : x.value < 2 ^ (64 : Int)) :
    ∃ t, ofFloat x = .ok t ∧ |t.inSeconds - x.value| ≤ 1 / (2 * 10 ^ 9) := by
  have hone := unitsPerOne_cast_pos
  have hmost := Binary64.value_le_of_lt (by decide) h
  norm_num at hmost
  obtain ⟨N, hN⟩ : ∃ N, Binary64.roundHalfEven (x.units * perSecond) unitsPerOne = N := ⟨_, rfl⟩
  obtain ⟨hlow, hhigh⟩ := ((Binary64.roundHalfEven_eq_iff unitsPerOne_pos).1 hN).le
  have hnear : |(N : ℚ) / 10 ^ 9 - x.value| ≤ 1 / (2 * 10 ^ 9) := by
    rw [perSecond] at hlow hhigh
    have hlow := (Nat.cast_le (α := ℚ)).2 hlow
    have hhigh := (Nat.cast_le (α := ℚ)).2 hhigh
    push_cast at hlow hhigh
    rw [x.units_eq_value] at hlow hhigh
    have hlow : 2 * (N : ℚ) ≤ 2 * (x.value * 1000000000) + 1 :=
      le_of_mul_le_mul_right (by linarith) hone
    have hhigh : 2 * (x.value * 1000000000) ≤ 2 * (N : ℚ) + 1 :=
      le_of_mul_le_mul_right (by linarith) hone
    exact abs_le.2 ⟨by linarith, by linarith⟩
  have hseconds : N / perSecond < 0x10000000000000000 := by
    rw [Nat.div_lt_iff_lt_mul (by decide), perSecond, ← @Nat.cast_lt ℚ]
    obtain ⟨-, hhigh⟩ := abs_le.1 hnear
    push_cast
    linarith
  obtain ⟨t, ht, hnanos⟩ := exists_ofNanos? hseconds
  refine ⟨t, ?_, by rwa [inSeconds_eq, hnanos]⟩
  simp only [ofFloat, hpos, Bool.false_and, Bool.false_eq_true, ↓reduceIte, hN, ht]

/-- The two roundings of a span are off by little more than a whole step. -/
theorem abs_toFloat_sub_le (h : 0x800000 ≤ s.seconds) :
    |s.toFloat.value - s.inSeconds| ≤ 17 / 2 ^ 56 * s.inSeconds := by
  obtain ⟨-, f, hone, herror, -, hholds⟩ := s.toFloat_spec
  have hseconds : s.seconds ≤ Nat.pow 10 308 :=
    s.seconds_lt.le.trans (Nat.le_trans (by decide) (Binary64.powTen_le (k := 20) (by decide)))
  obtain ⟨halow, hahigh⟩ := abs_le.1 (Binary64.abs_sub_ofNat_le (n := s.seconds) (by omega) hseconds)
  have hmany : (0x800000 : ℚ) ≤ s.seconds := by exact_mod_cast h
  have hfraction : (0 : ℚ) ≤ s.nanos / 10 ^ 9 := by positivity
  have hsum : s.inSeconds = s.seconds + s.nanos / 10 ^ 9 := by
    rw [inSeconds, perSecond]
    norm_num
  norm_num at herror
  obtain ⟨hflow, hfhigh⟩ := abs_le.1 herror
  have hleast : (2 : ℚ) ^ (-1022 : Int) ≤ 1 := zpow_le_one_of_nonpos₀ (by norm_num) (by decide)
  obtain ⟨hlow, hhigh⟩ := abs_le.1 (hholds.abs_sub_le_div (hleast.trans (by linarith)))
  exact abs_le.2 ⟨by linarith, by linarith⟩

/-- Only the last seconds are rounded up to `2 ^ 64`. -/
theorem toFloat_lt (h : s.seconds < 0xfffffffffffffc00) : s.toFloat.value < 2 ^ (64 : Int) := by
  obtain ⟨-, f, hone, -, -, hholds⟩ := s.toFloat_spec
  have hseconds : s.seconds ≤ Nat.pow 10 308 :=
    s.seconds_lt.le.trans (Nat.le_trans (by decide) (Binary64.powTen_le (k := 20) (by decide)))
  have hfew : (s.seconds : ℚ) < 0xfffffffffffffc00 := by exact_mod_cast h
  have hwhole := (Binary64.holds_ofNat hseconds).2.value_lt (b := 64) (by decide) (by
    norm_num
    linarith)
  have hstep := Binary64.value_le_of_lt (by decide) hwhole
  refine hholds.value_lt (by decide) ?_
  norm_num at hstep ⊢
  linarith

/-- **Every span below the last 1024 seconds comes back within one part in `2 ^ 50`.** -/
theorem exists_reread (h : s.seconds < 0xfffffffffffffc00) :
    ∃ t, s.reread = .ok t ∧ |t.inSeconds - s.inSeconds| ≤ s.inSeconds / 2 ^ 50 := by
  have hnonneg : 0 ≤ s.inSeconds := by
    rw [inSeconds]
    positivity
  rcases Nat.lt_or_ge s.seconds 0x800000 with hshort | hlong
  · refine ⟨s, reread_of_lt hshort, ?_⟩
    rw [sub_self, abs_zero]
    positivity
  · have hmany : (0x800000 : ℚ) ≤ s.inSeconds := by
      have hmany : (0x800000 : ℚ) ≤ s.seconds := by exact_mod_cast hlong
      exact hmany.trans (le_add_of_nonneg_right (by positivity))
    have hsign := s.toFloat_spec.1
    obtain ⟨hxlow, hxhigh⟩ := abs_le.1 (abs_toFloat_sub_le hlong)
    have hmost := toFloat_lt h
    rw [reread]
    generalize s.toFloat = x at *
    have hleast : 1 / 10 ^ 10 ≤ x.value := by linarith
    have hmantissa := Binary64.mantissa_pos (lt_of_lt_of_le (by norm_num) hleast)
    have hdigits := (Binary64.shortest_holds hmantissa).1
    obtain ⟨hnonneg, hread⟩ := Binary64.reread_near hsign hleast (by norm_num at hmost ⊢; linarith)
    obtain ⟨t, ht, hnear⟩ := exists_ofFloat hnonneg (Binary64.reread_lt hsign hleast hmost)
    refine ⟨t, ht, ?_⟩
    obtain ⟨hrlow, hrhigh⟩ := abs_le.1 hread
    obtain ⟨htlow, hthigh⟩ := abs_le.1 hnear
    have htiny : (2 : ℚ) ^ (-1022 : Int) ≤ 1 := zpow_le_one_of_nonpos₀ (by norm_num) (by decide)
    have hstep := Binary64.step_le_value hmantissa
    have hdleast := (abs_le.1 hdigits.abs_sub_le).1
    obtain ⟨hdlow, hdhigh⟩ := abs_le.1 (hdigits.abs_sub_le_div (htiny.trans (by linarith)))
    exact abs_le.2 ⟨by linarith, by linarith⟩

/-- The last 1024 seconds are rounded up, and then refused. -/
theorem reread_of_le (h : 0xfffffffffffffc00 ≤ s.seconds) : s.reread = .error .hugeSpan := by
  obtain ⟨-, f, hone, -, hadd, -⟩ := s.toFloat_spec
  have hmost : (s.seconds : ℚ) ≤ 0x10000000000000000 := by exact_mod_cast s.seconds_lt.le
  have hmany : (0xfffffffffffffc00 : ℚ) ≤ s.seconds := by exact_mod_cast h
  have hwhole : Binary64.ofNat s.seconds = .beyondSpans := by
    have hnearest : Binary64.nearest s.seconds 1 = some .beyondSpans := by
      refine (Binary64.nearest_eq_some_iff_holds Nat.one_pos).2 ⟨Binary64.beyondSpans_parts.1, ?_⟩
      refine Binary64.holds_beyondSpans ?_ ?_
      · rw [Nat.cast_one, div_one]
        linarith
      · rw [Nat.cast_one, div_one]
        linarith
    rw [Binary64.ofNat, hnearest, Option.getD_some]
  have hnonneg : 0 ≤ f.value := div_nonneg (Nat.cast_nonneg _) unitsPerOne_cast_pos.le
  have hsum : Binary64.beyondSpans.add f = some .beyondSpans := by
    refine Binary64.add_eq_some_iff.2 ⟨Binary64.beyondSpans_parts.1, ?_⟩
    rw [Binary64.value_beyondSpans]
    exact Binary64.holds_beyondSpans (by linarith) (by linarith)
  rw [hwhole, hsum] at hadd
  rw [reread, ← Option.some.inj hadd]
  decide +kernel

end Span

end IndexFeed
