import IndexFeed.Proofs.Number.Digits

/-!
# How far off the reading of a number is

The text of a number has digits that lie in its interval.  The reader divides them by a power of ten or
multiplies them by one, and rounds the digits, the power and the result.  Where digits and power have at
most 53 binary digits only a quotient is rounded, and the number is read again (`reread_eq_self`).
Elsewhere each of the three adds its error (`reread_near`).
-/

set_option autoImplicit false

namespace IndexFeed.Binary64

open Json (magnitude? scaleDown)

variable {n k : Nat} {x y : Binary64}

/-! ## What is written -/

theorem DecimalForm.value_of_neg (n k : Nat) :
    (⟨n, -(k : Int)⟩ : DecimalForm).value = n / (Nat.pow 10 k : Nat) := by
  rw [DecimalForm.value, zpow_neg, zpow_natCast, Nat.pow_eq, Nat.cast_pow, Nat.cast_ofNat, div_eq_mul_inv]

theorem DecimalForm.value_of_nonneg (n k : Nat) :
    (⟨n, (k : Int)⟩ : DecimalForm).value = (n * Nat.pow 10 k : Nat) := by
  rw [DecimalForm.value, zpow_natCast, Nat.pow_eq, Nat.cast_mul, Nat.cast_pow, Nat.cast_ofNat]

/-- Digits of a whole number below `10 ^ 15` are not too many for the layout without an exponent. -/
theorem length_chars_of_lt (hpos : 0 < n ∨ k = 0) (h : n * Nat.pow 10 k < 10 ^ 15) :
    k + (Decimal.chars n).length ≤ 15 := by
  rw [Nat.pow_eq] at h
  have hplaces : k < 15 := by
    rcases hpos with hpos | hnone
    · refine (Nat.pow_lt_pow_iff_right (by decide : 1 < 10)).1 (lt_of_le_of_lt ?_ h)
      exact Nat.le_mul_of_pos_left _ hpos
    · omega
  have hfew : n < 10 ^ (15 - k) := by
    refine Nat.lt_of_mul_lt_mul_right (a := 10 ^ k) ?_
    rwa [← Nat.pow_add, Nat.sub_add_cancel hplaces.le]
  have hchars := Decimal.length_chars_le (by omega) hfew
  omega

/-- A whole number without an exponent has few digits, also with a zero behind the point. -/
theorem mul_pow_lt_of_length (h : k + (Decimal.chars n).length ≤ 16) :
    n * Nat.pow 10 (k + 1) < 10 ^ 18 := by
  calc n * Nat.pow 10 (k + 1) < 10 ^ (Decimal.chars n).length * 10 ^ (k + 1) :=
        Nat.mul_lt_mul_of_pos_right (lt_pow_length_chars n) (Nat.pow_pos (by decide))
    _ = 10 ^ ((Decimal.chars n).length + (k + 1)) := (Nat.pow_add ..).symm
    _ ≤ 10 ^ 18 := Nat.pow_le_pow_right (by decide) (by omega)

/-- The shortest digits are gathered as a quotient by a power of ten, even those of a whole number, or
from `10 ^ 15` on as a product. -/
theorem written_cases (hx : 0 < x.mantissa) : ∃ n k : Nat, n < 10 ^ 18 ∧
    ((x.written = ⟨n, -(k : Int)⟩ ∧ 0 < k ∧ n / (Nat.pow 10 k : Nat) = x.shortest.value ∧
        (k = 1 ∨ x.shortest.exponent = -(k : Int))) ∨
      (x.written = ⟨n, (k : Int)⟩ ∧ (n * Nat.pow 10 k : Nat) = x.shortest.value ∧
        10 ^ 15 ≤ x.shortest.value)) := by
  have hzero : ¬x.isZero = true := by
    rw [isZero, beq_iff_eq]
    exact hx.ne'
  have hdigits := x.short_shortest.digits
  have hpos := x.shortest_pos
  rw [written, if_neg hzero]
  generalize x.shortest = f at *
  obtain ⟨digits, exponent⟩ := f
  dsimp only at *
  by_cases he : 0 ≤ exponent
  · obtain ⟨e, rfl⟩ := Int.eq_ofNat_of_zero_le he
    have hvalue := DecimalForm.value_of_nonneg digits e
    by_cases hwhole : 0 ≤ (e : Int) ∧ (e : Int) + (Decimal.chars digits).length ≤ 16
    · have htenfold : digits * Nat.pow 10 (e + 1) = digits * Nat.pow 10 e * 10 := by
        rw [Nat.pow_eq, Nat.pow_eq, Nat.pow_succ, Nat.mul_assoc]
      rw [if_pos hwhole, Int.toNat_natCast]
      refine ⟨_, 1, mul_pow_lt_of_length (by omega), .inl ⟨rfl, Nat.one_pos, ?_, .inl rfl⟩⟩
      rw [hvalue, htenfold, Nat.cast_mul]
      exact mul_div_cancel_right₀ _ (by norm_num)
    · rw [if_neg hwhole]
      refine ⟨digits, e, hdigits, .inr ⟨rfl, hvalue.symm, le_of_not_gt fun hlt => hwhole ⟨he, ?_⟩⟩⟩
      rw [hvalue] at hlt
      have hlength := length_chars_of_lt (n := digits) (k := e) (by omega) (by exact_mod_cast hlt)
      omega
  · obtain ⟨k, rfl⟩ : ∃ k : Nat, exponent = -(k : Int) := ⟨exponent.natAbs, by omega⟩
    rw [if_neg fun hwhole => he hwhole.1]
    have hvalue := DecimalForm.value_of_neg digits k
    exact ⟨digits, k, hdigits, .inl ⟨rfl, by omega, hvalue.symm, .inr rfl⟩⟩

/-! ## What is read -/

/-- A quotient by a power of ten is read with one division. -/
theorem div_powTen_of_written (hpos : x.negative = false) (hw : x.written = ⟨n, -(k : Int)⟩) (hk : 0 < k)
    (hplaces : k ≤ 308) : (ofNat n).div (powTen k) = some x.reread := by
  have hread := x.reread?_eq
  have hneg : ¬0 ≤ -(k : Int) := by omega
  rw [reread?, hw, hpos] at hread
  dsimp only at hread
  rw [magnitude?, if_neg hneg, Int.natAbs_neg, Int.natAbs_natCast, scaleDown, if_pos hplaces] at hread
  obtain ⟨y, hy, hsame⟩ := Option.map_eq_some_iff.1 hread
  rw [hy, ← hsame]
  exact congrArg some (if_neg (by decide)).symm

/-- A product is read with one multiplication. -/
theorem mul_powTen_of_written (hpos : x.negative = false) (hw : x.written = ⟨n, (k : Int)⟩)
    (hplaces : k ≤ 308) : (ofNat n).mul (powTen k) = some x.reread := by
  have hread := x.reread?_eq
  have hexponent : (k : Int) ≤ 308 := by omega
  rw [reread?, hw, hpos] at hread
  dsimp only at hread
  rw [magnitude?, if_pos (Int.natCast_nonneg k), if_pos hexponent, Int.toNat_natCast] at hread
  obtain ⟨y, hy, hsame⟩ := Option.map_eq_some_iff.1 hread
  rw [hy, ← hsame]
  exact congrArg some (if_neg (by decide)).symm

/-! ## Exact digits -/

/-- **A number is read again from its text if digits and power of ten are exact.** -/
theorem reread_eq_self (hpos : x.negative = false) (hw : x.written = ⟨n, -(k : Int)⟩) (hk : 0 < k)
    (hn : n < 0x20000000000000) (hten : Nat.pow 10 k < 0x20000000000000)
    (hholds : x.Holds (n / (Nat.pow 10 k : Nat))) : x.reread = x := by
  have hplaces : k ≤ 308 := by
    refine Nat.le_of_not_lt fun hmore => ?_
    have hpow : Nat.pow 10 16 ≤ Nat.pow 10 k := Nat.pow_le_pow_right (by decide) (by omega)
    exact absurd (hpow.trans_lt hten) (by decide)
  have hunits : 0 < (powTen k).units := unitsPerOne_pos.trans_le (le_units_powTen hplaces)
  have hself : (ofNat n).div (powTen k) = some x := by
    rw [div_eq_some_iff hunits, value_ofNat hn, powTen, value_ofNat hten]
    exact ⟨hpos, hholds⟩
  have hread := div_powTen_of_written hpos hw hk hplaces
  rw [hself] at hread
  exact (Option.some.inj hread).symm

/-- Between `10 ^ 6` and `2 ^ 23` a number that a whole number of billionths is rounded to is read again. -/
theorem reread_eq_self_of_holds (hpos : x.negative = false) (hlow : 10 ^ 6 ≤ x.value)
    (hhigh : x.value < 0x800000) {c : Nat} (hc : 0 < c) (hholds : x.Holds (c / 10 ^ 9)) :
    x.reread = x := by
  have hmantissa := mantissa_pos (lt_of_lt_of_le (by norm_num) hlow)
  have hplace : x.leadingPlace = 6 := by
    have hle := le_leadingPlace (x := x) (e := 6) (by exact_mod_cast hlow)
    have hlt := leadingPlace_lt (e := 7) hmantissa (by norm_num; linarith)
    omega
  have hgrid : x.Holds (c * 10 ^ (x.leadingPlace - (15 : Nat))) := by
    have hpower : (10 : ℚ) ^ ((6 : Int) - (15 : Nat)) = 1 / 10 ^ 9 := by norm_num
    rwa [hplace, hpower, mul_one_div]
  obtain ⟨hdigits, hexponent⟩ := shortest_spec hc (by decide) hgrid
  have hstep := step_le_of_value_lt (x := x) (b := 23) (by decide) (by norm_num; exact hhigh)
  norm_num at hstep
  have hmost := hdigits.le.2
  obtain ⟨n, k, -, ⟨hw, hk, hquotient, hplaces⟩ | ⟨-, -, hmany⟩⟩ := written_cases hmantissa
  swap
  · linarith
  have hten : Nat.pow 10 k ≤ Nat.pow 10 9 := Nat.pow_le_pow_right (by decide) (by omega)
  have hn : n < 0x20000000000000 := by
    have hcast : ((Nat.pow 10 k : Nat) : ℚ) ≤ 10 ^ 9 := by exact_mod_cast hten
    have hpower : (0 : ℚ) < (Nat.pow 10 k : Nat) := Nat.cast_pos.2 (Nat.pow_pos (by decide))
    rw [← hquotient] at hmost
    rw [← @Nat.cast_lt ℚ]
    calc (n : ℚ) = n / (Nat.pow 10 k : Nat) * (Nat.pow 10 k : Nat) := (div_mul_cancel₀ _ hpower.ne').symm
      _ ≤ 8388609 * 10 ^ 9 := mul_le_mul (by linarith) hcast hpower.le (by norm_num)
      _ < (0x20000000000000 : Nat) := by norm_num
  exact reread_eq_self hpos hw hk hn (hten.trans_lt (by decide)) (hquotient ▸ hdigits)

/-! ## Rounded digits -/

/-- The quotient of two values that are rounded, against the exact one. -/
theorem abs_div_sub_le {m t a p : ℚ} (hm : 0 < m) (ht : 0 < t) (ha : |m - a| ≤ m / 2 ^ 53)
    (hp : |t - p| ≤ t / 2 ^ 53) : |a / p - m / t| ≤ 33 / 2 ^ 57 * (m / t) := by
  obtain ⟨halow, hahigh⟩ := abs_le.1 ha
  obtain ⟨hplow, hphigh⟩ := abs_le.1 hp
  have hppos : 0 < p := by linarith
  have hexact : m / t * t = m := div_mul_cancel₀ _ ht.ne'
  have hrounded : a / p * p = a := div_mul_cancel₀ _ hppos.ne'
  generalize m / t = q at *
  generalize a / p = r at *
  have hr : 0 < r := pos_of_mul_pos_left (by linarith) hppos.le
  have hlow : q * (1 - 1 / 2 ^ 53) ≤ r * (1 + 1 / 2 ^ 53) := by
    refine le_of_mul_le_mul_right ?_ ht
    have hmul := mul_le_mul_of_nonneg_left (show p ≤ t * (1 + 1 / 2 ^ 53) by linarith) hr.le
    linarith
  have hhigh : r * (1 - 1 / 2 ^ 53) ≤ q * (1 + 1 / 2 ^ 53) := by
    refine le_of_mul_le_mul_right ?_ ht
    have hmul := mul_le_mul_of_nonneg_left (show t * (1 - 1 / 2 ^ 53) ≤ p by linarith) hr.le
    linarith
  exact abs_le.2 ⟨by linarith, by linarith⟩

/-- Their product, against the exact one. -/
theorem abs_mul_sub_le {m t a p : ℚ} (hm : 0 < m) (ht : 0 < t) (ha : |m - a| ≤ m / 2 ^ 53)
    (hp : |t - p| ≤ t / 2 ^ 53) : |a * p - m * t| ≤ 33 / 2 ^ 57 * (m * t) := by
  obtain ⟨halow, hahigh⟩ := abs_le.1 ha
  obtain ⟨hplow, hphigh⟩ := abs_le.1 hp
  have happos : 0 < a := by linarith
  have hq : 0 < m * t := mul_pos hm ht
  have hlow : m * (1 - 1 / 2 ^ 53) * (t * (1 - 1 / 2 ^ 53)) ≤ a * p :=
    mul_le_mul (by linarith) (by linarith) (by linarith) happos.le
  have hhigh : a * p ≤ m * (1 + 1 / 2 ^ 53) * (t * (1 + 1 / 2 ^ 53)) :=
    mul_le_mul (by linarith) (by linarith) (by linarith) (by linarith)
  exact abs_le.2 ⟨by linarith, by linarith⟩

/-- A third rounding adds its error. -/
theorem Holds.near {q r : ℚ} (h : y.Holds r) (hr : |r - q| ≤ 33 / 2 ^ 57 * q) (hq : 1 / 10 ^ 30 ≤ q) :
    |y.value - q| ≤ 25 / 2 ^ 56 * q := by
  obtain ⟨hrlow, hrhigh⟩ := abs_le.1 hr
  have hleast : (2 : ℚ) ^ (-1022 : Int) ≤ 1 / 10 ^ 30 / 2 :=
    le_trans (zpow_le_zpow_right₀ (by norm_num) (by decide : (-1022 : Int) ≤ -200)) (by norm_num)
  obtain ⟨hlow, hhigh⟩ := abs_le.1 (h.abs_sub_le_div (hleast.trans (by linarith)))
  exact abs_le.2 ⟨by linarith, by linarith⟩

/-- Whole numbers and powers of ten are rounded with a small error. -/
theorem abs_sub_ofNat_le (hn : 0 < n) (hmost : n ≤ Nat.pow 10 308) :
    |(n : ℚ) - (ofNat n).value| ≤ n / 2 ^ 53 := by
  refine (holds_ofNat hmost).2.abs_sub_le_div ?_
  have hone : (2 : ℚ) ^ (-1022 : Int) ≤ 1 := zpow_le_one_of_nonpos₀ (by norm_num) (by decide)
  exact hone.trans (Nat.one_le_cast.2 hn)

/-- **With three roundings the reading is off by little more than three half steps** from the digits. -/
theorem reread_near (hpos : x.negative = false) (hleast : 1 / 10 ^ 10 ≤ x.value)
    (hmost : x.value ≤ 10 ^ 20) : x.reread.negative = false ∧
      |x.reread.value - x.shortest.value| ≤ 25 / 2 ^ 56 * x.shortest.value := by
  have hmantissa := mantissa_pos (lt_of_lt_of_le (by norm_num) hleast)
  obtain ⟨hdigits, hexponent⟩ := shortest_holds hmantissa
  have hplace : -10 ≤ x.leadingPlace := by
    refine le_leadingPlace (le_of_eq_of_le ?_ hleast)
    norm_num
  have hstep := step_le_value hmantissa
  obtain ⟨hlow, hhigh⟩ := abs_le.1 hdigits.abs_sub_le
  have htiny : 1 / 10 ^ 30 ≤ x.shortest.value := by linarith
  obtain ⟨n, k, hn, hcases⟩ := written_cases hmantissa
  have hdigitsMost : n ≤ Nat.pow 10 308 := hn.le.trans (powTen_le (k := 18) (by decide))
  have hten : (0 : ℚ) < (Nat.pow 10 k : Nat) := Nat.cast_pos.2 (Nat.pow_pos (by decide))
  have hnpos : 0 < n := by
    refine Nat.pos_of_ne_zero fun hzero => ?_
    rcases hcases with ⟨-, -, hvalue, -⟩ | ⟨-, hvalue, -⟩
    · rw [hzero, Nat.cast_zero, zero_div] at hvalue
      linarith
    · rw [hzero, Nat.zero_mul, Nat.cast_zero] at hvalue
      linarith
  have hfew : k ≤ 30 := by
    rcases hcases with ⟨-, -, -, hplaces⟩ | ⟨-, hvalue, -⟩
    · omega
    · have hlt : n * 10 ^ k < 10 ^ 21 := by
        have hlt : ((n * Nat.pow 10 k : Nat) : ℚ) < 10 ^ 21 := by linarith
        exact_mod_cast hlt
      have hpower := (Nat.le_mul_of_pos_left (10 ^ k) hnpos).trans_lt hlt
      have hless := (Nat.pow_lt_pow_iff_right (by decide : 1 < 10)).1 hpower
      omega
  have ha := abs_sub_ofNat_le hnpos hdigitsMost
  have hp := abs_sub_ofNat_le (n := Nat.pow 10 k) (Nat.pow_pos (by decide)) (powTen_le (by omega))
  have hnpos : (0 : ℚ) < n := Nat.cast_pos.2 hnpos
  rcases hcases with ⟨hw, hk, hvalue, -⟩ | ⟨hw, hvalue, -⟩
  · have hread := div_powTen_of_written hpos hw hk (by omega)
    have hunits : 0 < (powTen k).units := unitsPerOne_pos.trans_le (le_units_powTen (by omega))
    obtain ⟨hsign, hholds⟩ := (div_eq_some_iff hunits).1 hread
    rw [← hvalue] at htiny ⊢
    exact ⟨hsign, hholds.near (abs_div_sub_le hnpos hten ha hp) htiny⟩
  · have hread := mul_powTen_of_written hpos hw (by omega)
    obtain ⟨hsign, hholds⟩ := mul_eq_some_iff.1 hread
    rw [← hvalue, Nat.cast_mul] at htiny ⊢
    exact ⟨hsign, hholds.near (abs_mul_sub_le hnpos hten ha hp) htiny⟩

end IndexFeed.Binary64
