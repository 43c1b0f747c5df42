import Mathlib.Algebra.Order.Field.Power
import Mathlib.Data.Rat.Cast.Order
import Mathlib.Tactic.FieldSimp
import Mathlib.Tactic.Linarith
import Mathlib.Tactic.Positivity
import IndexFeed.Proofs.Number.Interval

/-!
# The values of numbers

A number of the format as a rational number, and its interval as one of rational numbers: what lies
in it is rounded to the number, and is off by at most half a step.
-/

set_option autoImplicit false

namespace IndexFeed.Binary64

variable {n d : Nat} {x y z : Binary64} {v w : ℚ}

/-! ## Values -/

/-- The magnitude. -/
def value (x : Binary64) : ℚ := x.units / unitsPerOne

/-- The distance to the number above. -/
def step (x : Binary64) : ℚ := (Nat.pow 2 x.scale : Nat) / unitsPerOne

theorem unitsPerOne_cast_pos : (0 : ℚ) < unitsPerOne := Nat.cast_pos.2 unitsPerOne_pos

theorem step_pos (x : Binary64) : 0 < x.step := by
  have hpower : (0 : ℚ) < (Nat.pow 2 x.scale : Nat) := Nat.cast_pos.2 (Nat.pow_pos (by decide))
  exact div_pos hpower unitsPerOne_cast_pos

theorem value_eq (x : Binary64) : x.value = x.mantissa * x.step := by
  rw [value, step, units]
  push_cast
  ring

theorem mantissa_pos (h : 0 < x.value) : 0 < x.mantissa := by
  refine Nat.pos_of_ne_zero fun hzero => ?_
  rw [value_eq, hzero, Nat.cast_zero, zero_mul] at h
  exact lt_irrefl 0 h

theorem step_le_value (hx : 0 < x.mantissa) : x.step ≤ x.value := by
  rw [value_eq]
  exact le_mul_of_one_le_left x.step_pos.le (Nat.one_le_cast.2 hx)

theorem units_eq_value (x : Binary64) : (x.units : ℚ) = x.value * unitsPerOne := by
  rw [value, div_mul_cancel₀ _ unitsPerOne_cast_pos.ne']

/-- How far the interval goes down. -/
def gapBelow (x : Binary64) : ℚ :=
  if x.mantissa = 0x10000000000000 ∧ 0 < x.scale then x.step / 4 else x.step / 2

theorem gapBelow_pos (x : Binary64) : 0 < x.gapBelow := by
  have hstep := x.step_pos
  rw [gapBelow]
  split <;> positivity

/-- The value lies in the interval of the number, whose ends belong to it if the mantissa is even. -/
structure Holds (x : Binary64) (v : ℚ) : Prop where
  inside : if x.mantissa % 2 = 0 then x.value - x.gapBelow ≤ v ∧ v ≤ x.value + x.step / 2
    else x.value - x.gapBelow < v ∧ v < x.value + x.step / 2

theorem holds_iff : x.Holds v ↔
    if x.mantissa % 2 = 0 then x.value - x.gapBelow ≤ v ∧ v ≤ x.value + x.step / 2
    else x.value - x.gapBelow < v ∧ v < x.value + x.step / 2 :=
  ⟨Holds.inside, Holds.mk⟩

theorem upperEnd_cast (x : Binary64) :
    (x.upperEnd : ℚ) = (x.value + x.step / 2) * (4 * unitsPerOne) := by
  have hpos := unitsPerOne_cast_pos.ne'
  rw [upperEnd, centre, value, step]
  push_cast
  field_simp
  ring

theorem lowerEnd_cast (hx : 0 < x.mantissa) :
    (x.lowerEnd : ℚ) = (x.value - x.gapBelow) * (4 * unitsPerOne) := by
  have hpos := unitsPerOne_cast_pos.ne'
  have hone : Nat.pow 2 x.scale ≤ x.units := Nat.le_mul_of_pos_left _ hx
  rw [lowerEnd, gapBelow, centre, value, step]
  split
  · rw [Nat.cast_sub (by omega)]
    push_cast
    field_simp
  · rw [Nat.cast_sub (by omega)]
    push_cast
    field_simp
    ring

/-- A quotient of quarters reads back if its value lies in the interval. -/
theorem readsBack_iff_holds (hd : 0 < d) (hv : (n : ℚ) = v * (4 * unitsPerOne) * d) :
    x.readsBack n d = true ↔ x.Holds v := by
  have hunit : (0 : ℚ) < 4 * unitsPerOne * d :=
    mul_pos (mul_pos (by norm_num) unitsPerOne_cast_pos) (Nat.cast_pos.2 hd)
  have hupper : ((x.upperEnd * d : Nat) : ℚ) = (x.value + x.step / 2) * (4 * unitsPerOne * d) := by
    rw [Nat.cast_mul, upperEnd_cast, mul_assoc]
  rw [mul_assoc] at hv
  rw [readsBack, holds_iff]
  rcases Nat.eq_zero_or_pos x.mantissa with hzero | hx
  · -- the interval of zero is cut off at its lower end, and so are the quotients
    have hunits : x.units = 0 := by rw [units, hzero, Nat.zero_mul]
    have hlower : x.lowerEnd * d = 0 := by
      rw [lowerEnd, centre, hunits, Nat.mul_zero, Nat.zero_sub, Nat.zero_sub, ite_self, Nat.zero_mul]
    have hvalue : x.value = 0 := by rw [value, hunits, Nat.cast_zero, zero_div]
    have hnonneg : 0 ≤ v := nonneg_of_mul_nonneg_left (hv ▸ Nat.cast_nonneg n) hunit
    have hgap : x.value - x.gapBelow ≤ v := by
      linarith [x.gapBelow_pos]
    rw [if_pos (by rw [hzero]), if_pos (by rw [hzero]), Bool.and_eq_true, decide_eq_true_iff,
      decide_eq_true_iff, hlower]
    refine (and_iff_right (Nat.zero_le n)).trans (Iff.trans ?_ (and_iff_right hgap).symm)
    rw [← @Nat.cast_le ℚ, hupper, hv, mul_le_mul_iff_left₀ hunit]
  · have hlower : ((x.lowerEnd * d : Nat) : ℚ) = (x.value - x.gapBelow) * (4 * unitsPerOne * d) := by
      rw [Nat.cast_mul, lowerEnd_cast hx, mul_assoc]
    split
    · rw [Bool.and_eq_true, decide_eq_true_iff, decide_eq_true_iff, ← @Nat.cast_le ℚ, ← @Nat.cast_le ℚ,
        hlower, hupper, hv, mul_le_mul_iff_left₀ hunit, mul_le_mul_iff_left₀ hunit]
    · rw [Bool.and_eq_true, decide_eq_true_iff, decide_eq_true_iff, ← @Nat.cast_lt ℚ, ← @Nat.cast_lt ℚ,
        hlower, hupper, hv, mul_lt_mul_iff_left₀ hunit, mul_lt_mul_iff_left₀ hunit]

/-! ## Operations -/

/-- **A quotient is rounded to a number if and only if its value lies in the interval.** -/
theorem nearest_eq_some_iff_holds (hd : 0 < d) :
    nearest n d = some x ↔ x.negative = false ∧ x.Holds (n / d) := by
  have hquotient : ((n * quartersPerOne : Nat) : ℚ) = (n / d : ℚ) * (4 * unitsPerOne) * d := by
    have hcancel : (n / d : ℚ) * d = n := div_mul_cancel₀ _ (Nat.cast_ne_zero.2 (Nat.ne_of_gt hd))
    rw [quartersPerOne, Nat.cast_mul, Nat.cast_mul, Nat.cast_ofNat, mul_right_comm, hcancel]
  rw [nearest_eq_some_iff hd, ← readsBack_iff, readsBack_iff_holds hd hquotient]

theorem div_eq_some_iff (hy : 0 < y.units) :
    x.div y = some z ↔ z.negative = false ∧ z.Holds (x.value / y.value) := by
  have hquotient : x.value / y.value = x.units / y.units := by
    rw [value, value, div_div_div_cancel_right₀ unitsPerOne_cast_pos.ne']
  rw [div, nearest_eq_some_iff_holds hy, hquotient]

theorem mul_eq_some_iff : x.mul y = some z ↔ z.negative = false ∧ z.Holds (x.value * y.value) := by
  have hproduct : x.value * y.value = (x.units * y.units : Nat) / (unitsPerOne * unitsPerOne : Nat) := by
    rw [value, value, div_mul_div_comm, Nat.cast_mul, Nat.cast_mul]
  rw [mul, nearest_eq_some_iff_holds (Nat.mul_pos unitsPerOne_pos unitsPerOne_pos), hproduct]

theorem add_eq_some_iff : x.add y = some z ↔ z.negative = false ∧ z.Holds (x.value + y.value) := by
  rw [add, nearest_eq_some_iff_holds unitsPerOne_pos, value, value, ← add_div, Nat.cast_add]

/-- Whole numbers of 53 binary digits are exact. -/
theorem value_ofNat (hn : n < 0x20000000000000) : (ofNat n).value = n := by
  have hpos := unitsPerOne_cast_pos.ne'
  rw [value, (units_ofNat hn).2, Nat.cast_mul, mul_div_cancel_right₀ _ hpos]

/-- All others in range are rounded. -/
theorem holds_ofNat (hn : n ≤ Nat.pow 10 308) : (ofNat n).negative = false ∧ (ofNat n).Holds n := by
  obtain ⟨hpos, hholds⟩ := (nearest_eq_some_iff_holds Nat.one_pos).1 (nearest_ofNat hn)
  rw [Nat.cast_one, div_one] at hholds
  exact ⟨hpos, hholds⟩

/-! ## Intervals -/

theorem gapBelow_le (x : Binary64) : x.gapBelow ≤ x.step / 2 := by
  have hstep := x.step_pos
  rw [gapBelow]
  split <;> linarith

theorem Holds.of_lt (hlow : x.value - x.gapBelow < v) (hhigh : v < x.value + x.step / 2) :
    x.Holds v := by
  rw [holds_iff]
  split
  · exact ⟨hlow.le, hhigh.le⟩
  · exact ⟨hlow, hhigh⟩

theorem Holds.le (h : x.Holds v) : x.value - x.gapBelow ≤ v ∧ v ≤ x.value + x.step / 2 := by
  rw [holds_iff] at h
  split at h
  · exact h
  · exact ⟨h.1.le, h.2.le⟩

theorem Holds.abs_sub_le (h : x.Holds v) : |v - x.value| ≤ x.step / 2 := by
  obtain ⟨hlow, hhigh⟩ := h.le
  have hgap := x.gapBelow_le
  exact abs_le.2 ⟨by linarith, by linarith⟩

/-- What lies between a number and a value of its interval is in the interval. -/
theorem Holds.between (h : x.Holds v) (hw : v ≤ w ∧ w ≤ x.value ∨ x.value ≤ w ∧ w ≤ v) :
    x.Holds w := by
  have hstep := x.step_pos
  have hgap := x.gapBelow_pos
  rw [holds_iff] at h ⊢
  split_ifs at h ⊢
  · rcases hw with ⟨hvw, hwx⟩ | ⟨hxw, hwv⟩
    · exact ⟨by linarith, by linarith⟩
    · exact ⟨by linarith, by linarith⟩
  · rcases hw with ⟨hvw, hwx⟩ | ⟨hxw, hwv⟩
    · exact ⟨by linarith, by linarith⟩
    · exact ⟨by linarith, by linarith⟩

/-! ## Steps -/

theorem step_eq (x : Binary64) : x.step = 2 ^ ((x.scale : Int) - 1074) := by
  -- the exponent is kept out of sight, so that its power is not worked out
  obtain ⟨t, ht⟩ : ∃ t, t = 1074 := ⟨_, rfl⟩
  have hexponent : (1074 : Int) = (t : Nat) := by omega
  rw [step, unitsPerOne_eq ht, hexponent, zpow_sub₀ (by norm_num), zpow_natCast, zpow_natCast, Nat.pow_eq,
    Nat.cast_pow, Nat.cast_pow, Nat.cast_ofNat]

/-- Below a power of two there is a greatest step. -/
theorem step_le_of_value_lt {b : Int} (hb : -1021 ≤ b) (h : x.value < 2 ^ b) :
    x.step ≤ 2 ^ (b - 53) := by
  have hstep := x.step_pos
  rw [value_eq] at h
  rw [step_eq] at *
  refine zpow_le_zpow_right₀ (by norm_num) ?_
  rcases x.leading with hm | hs
  · have hm : (2 : ℚ) ^ (52 : Int) ≤ x.mantissa := by exact_mod_cast hm
    have hlt := (mul_le_mul_of_nonneg_right hm hstep.le).trans_lt h
    rw [← zpow_add₀ (by norm_num), zpow_lt_zpow_iff_right₀ (by norm_num)] at hlt
    omega
  · omega

/-- From a power of two on there is a least step. -/
theorem le_step_of_le_value {b : Int} (h : 2 ^ b ≤ x.value) : 2 ^ (b - 52) ≤ x.step := by
  have hm : (x.mantissa : ℚ) < 2 ^ (53 : Int) := by exact_mod_cast x.mantissa_lt
  have hlt := h.trans_lt (x.value_eq.trans_lt (mul_lt_mul_of_pos_right hm x.step_pos))
  rw [step_eq] at *
  rw [← zpow_add₀ (by norm_num), zpow_lt_zpow_iff_right₀ (by norm_num)] at hlt
  exact zpow_le_zpow_right₀ (by norm_num) (by omega)

/-- What is not tiny is rounded with an error that is small in proportion. -/
theorem Holds.abs_sub_le_div (h : x.Holds v) (hv : 2 ^ (-1022 : Int) ≤ v) :
    |v - x.value| ≤ v / 2 ^ 53 := by
  have hstep := x.step_pos
  have hvalue := x.value_eq
  obtain ⟨hlow, hhigh⟩ := h.le
  have hnear : 0x10000000000000 * x.step ≤ v → |v - x.value| ≤ v / 2 ^ 53 := by
    intro hle
    refine h.abs_sub_le.trans ?_
    linarith
  rcases Nat.eq_zero_or_pos x.scale with hs | hs
  · refine hnear (le_of_eq_of_le ?_ hv)
    rw [x.step_eq, hs, show (-1022 : Int) = 52 + (((0 : Nat) : Int) - 1074) by decide,
      zpow_add₀ (by norm_num)]
    norm_num
  rcases (x.leading.resolve_right hs.ne').eq_or_lt with hpower | hmore
  · -- a power of two: the numbers below it are nearer to each other
    have hmantissa : (x.mantissa : ℚ) = 0x10000000000000 := by exact_mod_cast hpower.symm
    have hquarter : x.gapBelow = x.step / 4 := if_pos ⟨hpower.symm, hs⟩
    rw [hmantissa] at hvalue
    exact abs_le.2 ⟨by linarith, by linarith⟩
  · have hmantissa : (0x10000000000001 : ℚ) ≤ x.mantissa := by exact_mod_cast hmore
    have hmul := mul_le_mul_of_nonneg_right hmantissa hstep.le
    have hgap := x.gapBelow_le
    exact hnear (by linarith)

/-- The number below a power of two is a step below it. -/
theorem value_le_of_lt {b : Int} (hb : -1021 ≤ b) (h : x.value < 2 ^ b) :
    x.value ≤ 2 ^ b - 2 ^ (b - 53) := by
  have hstep := step_le_of_value_lt hb h
  have hm : (x.mantissa : ℚ) + 1 ≤ 2 ^ (53 : Int) := by exact_mod_cast x.mantissa_lt
  have hpower : (2 : ℚ) ^ b = 2 ^ (53 : Int) * 2 ^ (b - 53) := by
    rw [← zpow_add₀ (by norm_num), add_sub_cancel]
  rw [value_eq, hpower]
  calc x.mantissa * x.step ≤ (2 ^ (53 : Int) - 1) * 2 ^ (b - 53) :=
        mul_le_mul (by linarith) hstep x.step_pos.le (by norm_num)
    _ = 2 ^ (53 : Int) * 2 ^ (b - 53) - 2 ^ (b - 53) := by ring

/-- A number that is not below a power of two, though something is rounded to it that is not above the
power, has the step that begins at the power. -/
theorem Holds.step_eq_of_le {b : Int} (h : x.Holds v) (hb : -1021 ≤ b) (hv : v ≤ 2 ^ b)
    (hle : 2 ^ b ≤ x.value) : x.step = 2 ^ (b - 52) := by
  have hone : (0 : ℚ) < 2 ^ b := zpow_pos (by norm_num) b
  have htwice : (2 : ℚ) ^ (b + 1) = 2 * 2 ^ b := by
    rw [zpow_add_one₀ (by norm_num), mul_comm]
  -- the power itself is rounded to the number, which is hence near to it
  obtain ⟨hnear, -⟩ := abs_le.1 ((h.between (.inl ⟨hv, hle⟩)).abs_sub_le_div
    (zpow_le_zpow_right₀ (by norm_num) (by omega)))
  have hmost := step_le_of_value_lt (x := x) (b := b + 1) (by omega) (by linarith)
  rw [show b + 1 - 53 = b - 52 by omega] at hmost
  exact le_antisymm hmost (le_step_of_le_value hle)

/-- What is nearer to the number below a power of two than to the power is not rounded up to it. -/
theorem Holds.value_lt {b : Int} (h : x.Holds v) (hb : -1021 ≤ b) (hv : v < 2 ^ b - 2 ^ (b - 54)) :
    x.value < 2 ^ b := by
  refine lt_of_not_ge fun hle => ?_
  have hpos : (0 : ℚ) < 2 ^ (b - 54) := zpow_pos (by norm_num) _
  have hlow := h.le.1
  have hvalue := x.value_eq
  have hstep := h.step_eq_of_le hb (by linarith) hle
  have hquarter : x.step = 4 * 2 ^ (b - 54) := by
    rw [hstep, show b - 52 = 2 + (b - 54) by omega, zpow_add₀ (by norm_num)]
    norm_num
  have hpower : (2 : ℚ) ^ b = 0x10000000000000 * x.step := by
    rw [hstep, show (0x10000000000000 : ℚ) = 2 ^ (52 : Int) by norm_num, ← zpow_add₀ (by norm_num),
      add_sub_cancel]
  have hm : 0x10000000000000 ≤ x.mantissa := by
    rw [hpower, hvalue] at hle
    exact_mod_cast le_of_mul_le_mul_right hle x.step_pos
  rcases hm.eq_or_lt with hpart | hmore
  · have hscale : 0 < x.scale := by
      rw [x.step_eq] at hstep
      have hexponent := zpow_right_injective₀ (by norm_num) (by norm_num) hstep
      omega
    have hgap : x.gapBelow = x.step / 4 := if_pos ⟨hpart.symm, hscale⟩
    rw [← hpart] at hvalue
    push_cast at hvalue
    linarith
  · have hmore : (0x10000000000001 : ℚ) ≤ x.mantissa := by exact_mod_cast hmore
    have hmul := mul_le_mul_of_nonneg_right hmore x.step_pos.le
    have hgap := x.gapBelow_le
    linarith

/-- Below a power of two the error is at most half a step. -/
theorem Holds.of_lt_zpow {b : Int} (h : x.Holds v) (hb : -1021 ≤ b) (hv : v < 2 ^ b - 2 ^ (b - 54)) :
    x.value < 2 ^ b ∧ x.step ≤ 2 ^ (b - 53) ∧ |v - x.value| ≤ 2 ^ (b - 54) := by
  have hbound := h.value_lt hb hv
  have hstep := step_le_of_value_lt hb hbound
  have hhalf : (2 : ℚ) ^ (b - 53) = 2 * 2 ^ (b - 54) := by
    rw [show b - 53 = 1 + (b - 54) by omega, zpow_add₀ (by norm_num), zpow_one]
  have herror := h.abs_sub_le
  exact ⟨hbound, hstep, by linarith⟩

/-- What is not below a power of two is not rounded to a number below it. -/
theorem Holds.le_value {b : Int} (h : x.Holds v) (hb : -1021 ≤ b) (hv : 2 ^ b ≤ v) :
    2 ^ b ≤ x.value := by
  refine le_of_not_gt fun hlt => ?_
  have hpos := x.step_pos
  have hstep := step_le_of_value_lt hb hlt
  have hm : (x.mantissa : ℚ) + 1 ≤ 2 ^ (53 : Int) := by exact_mod_cast x.mantissa_lt
  have hnext : x.value + x.step ≤ 2 ^ b := by
    calc x.value + x.step = (x.mantissa + 1) * x.step := by rw [value_eq]; ring
      _ ≤ 2 ^ (53 : Int) * 2 ^ (b - 53) := mul_le_mul hm hstep hpos.le (by positivity)
      _ = 2 ^ b := by rw [← zpow_add₀ (by norm_num), add_sub_cancel]
  have hhigh := h.le.2
  linarith

end IndexFeed.Binary64
