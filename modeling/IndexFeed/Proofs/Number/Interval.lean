import Mathlib.Tactic.Ring
import IndexFeed.Proofs.Json.FloatRange

/-!
# The quotients that are rounded to a number

`readsBack` compares a quotient with the two ends of an interval around a number, and `nearest` works on
the quotient alone.  Both say the same: a quotient is rounded to a number if and only if it lies in the
interval of that number (`nearest_eq_some_iff`).  In particular a number of the format is rounded to itself.
-/

set_option autoImplicit false

namespace IndexFeed.Binary64

variable {n d r s m : Nat} {x : Binary64}

/-! ## Whole numbers -/

/-- The quotient is nearer to `r` than to any other whole number, or half way to one and `r` is even. -/
def Rounds (n d r : Nat) : Prop :=
  if r % 2 = 0 then 2 * (r * d) ≤ 2 * n + d ∧ 2 * n ≤ 2 * (r * d) + d
  else 2 * (r * d) < 2 * n + d ∧ 2 * n < 2 * (r * d) + d

theorem Rounds.le (h : Rounds n d r) : 2 * (r * d) ≤ 2 * n + d ∧ 2 * n ≤ 2 * (r * d) + d := by
  unfold Rounds at h
  split at h
  · exact h
  · omega

theorem Rounds.of_lt (hlow : 2 * (r * d) < 2 * n + d) (hhigh : 2 * n < 2 * (r * d) + d) :
    Rounds n d r := by
  unfold Rounds
  split
  · omega
  · exact ⟨hlow, hhigh⟩

theorem rounds_roundHalfEven (n : Nat) (hd : 0 < d) : Rounds n d (roundHalfEven n d) := by
  have hn := Nat.div_add_mod n d
  have hr := Nat.mod_lt n hd
  have hcomm := Nat.mul_comm d (n / d)
  have hsucc := Nat.add_one_mul (n / d) d
  rw [roundHalfEven]
  split
  · exact .of_lt (by omega) (by omega)
  · split
    · exact .of_lt (by omega) (by omega)
    · rcases Nat.mod_two_eq_zero_or_one (n / d) with heven | hodd
      · rw [heven, Nat.add_zero, Rounds, if_pos heven]
        omega
      · rw [hodd, Rounds, if_pos (by omega)]
        omega

/-- There is one whole number to round to. -/
theorem Rounds.unique {r' : Nat} (hd : 0 < d) (h : Rounds n d r) (h' : Rounds n d r') : r = r' := by
  have hless : ∀ {a b : Nat}, Rounds n d a → Rounds n d b → ¬a < b := by
    intro a b ha hb hab
    have hmul := Nat.mul_le_mul_right d hab
    rw [Nat.succ_mul] at hmul
    obtain ⟨-, hhigh⟩ := ha.le
    obtain ⟨hlow, -⟩ := hb.le
    -- both are half way off, so they follow each other and cannot both be even
    have hnext : b * d < (a + 2) * d := by
      rw [Nat.add_mul]
      omega
    have hb2 := Nat.lt_of_mul_lt_mul_right hnext
    unfold Rounds at ha hb
    split at ha
    · split at hb
      · omega
      · omega
    · omega
  exact Nat.le_antisymm (Nat.le_of_not_lt (hless h' h)) (Nat.le_of_not_lt (hless h h'))

theorem roundHalfEven_eq_iff (hd : 0 < d) : roundHalfEven n d = r ↔ Rounds n d r := by
  constructor
  · rintro rfl
    exact rounds_roundHalfEven n hd
  · exact (rounds_roundHalfEven n hd).unique hd

/-! ## The scale of a quotient -/

theorem scale_eq (hd : 0 < d) (hlt : n < d * 2 ^ s * 0x20000000000000)
    (hle : s = 0 ∨ d * 2 ^ s * 0x10000000000000 ≤ n) : (n / d).log2 - 52 = s := by
  have hupper : n / d < 2 ^ (s + 53) := by
    rw [Nat.div_lt_iff_lt_mul hd, Nat.pow_add]
    calc n < d * 2 ^ s * 0x20000000000000 := hlt
      _ = 2 ^ s * 2 ^ 53 * d := by ring
  rcases hle with rfl | hle
  · by_cases hzero : n / d = 0
    · rw [hzero]
      decide
    · have hlog := (Nat.log2_lt hzero).2 hupper
      omega
  · have hlower : 2 ^ (s + 52) ≤ n / d := by
      rw [Nat.le_div_iff_mul_le hd, Nat.pow_add]
      calc 2 ^ s * 2 ^ 52 * d = d * 2 ^ s * 0x10000000000000 := by ring
        _ ≤ n := hle
    have hne : n / d ≠ 0 := Nat.ne_of_gt (Nat.lt_of_lt_of_le (Nat.pow_pos (by decide)) hlower)
    have hleast := (Nat.le_log2 hne).2 hlower
    have hlog := (Nat.log2_lt hne).2 hupper
    omega

/-- The quotient has at most 53 binary digits in front of the point. -/
theorem lt_of_scale (hd : 0 < d) : n < d * 2 ^ ((n / d).log2 - 52) * 0x20000000000000 := by
  have hquotient : n / d < 2 ^ ((n / d).log2 - 52 + 53) := by
    refine Nat.lt_of_lt_of_le Nat.lt_log2_self (Nat.pow_le_pow_right (by decide) ?_)
    omega
  rw [Nat.div_lt_iff_lt_mul hd, Nat.pow_add] at hquotient
  calc n < 2 ^ ((n / d).log2 - 52) * 2 ^ 53 * d := hquotient
    _ = d * 2 ^ ((n / d).log2 - 52) * 0x20000000000000 := by ring

/-! ## The interval -/

/-- The quotient `q / d` of units lies in the interval, whose ends belong to it if the mantissa is
even. -/
def Covers (x : Binary64) (q d : Nat) : Prop :=
  if x.mantissa % 2 = 0 then x.lowerEnd * d ≤ 4 * q ∧ 4 * q ≤ x.upperEnd * d
  else x.lowerEnd * d < 4 * q ∧ 4 * q < x.upperEnd * d

theorem readsBack_iff : x.readsBack (n * quartersPerOne) d = true ↔ x.Covers (n * unitsPerOne) d := by
  have hquarters : n * quartersPerOne = 4 * (n * unitsPerOne) := by
    rw [quartersPerOne]
    ring
  rw [readsBack, Covers, hquarters]
  split <;> simp

theorem upperEnd_mul (x : Binary64) (d : Nat) :
    x.upperEnd * d = 4 * (x.mantissa * (d * 2 ^ x.scale)) + 2 * (d * 2 ^ x.scale) := by
  rw [upperEnd, centre, units, Nat.pow_eq]
  ring

theorem lowerEnd_mul (x : Binary64) (d : Nat) : x.lowerEnd * d =
    4 * (x.mantissa * (d * 2 ^ x.scale)) -
      (if x.mantissa = 0x10000000000000 ∧ 0 < x.scale then 1 else 2) * (d * 2 ^ x.scale) := by
  have hcentre : 4 * (x.mantissa * 2 ^ x.scale) * d = 4 * (x.mantissa * (d * 2 ^ x.scale)) := by ring
  rw [lowerEnd, centre, units, Nat.pow_eq]
  split
  · rw [Nat.sub_mul, hcentre]
    congr 1
    ring
  · rw [Nat.sub_mul, hcentre]
    congr 1
    ring

/-- A quotient that has the scale of a number lies in its interval if and only if it is rounded to its
mantissa. -/
theorem covers_iff_rounds {q : Nat} (hle : x.scale = 0 ∨ d * 2 ^ x.scale * 0x10000000000000 ≤ q) :
    x.Covers q d ↔ Rounds q (d * 2 ^ x.scale) x.mantissa := by
  rw [Covers, upperEnd_mul, lowerEnd_mul, Rounds]
  -- at a power of two the quotient is not below the number
  have hpower : x.mantissa = 0x10000000000000 ∧ 0 < x.scale → x.mantissa * (d * 2 ^ x.scale) ≤ q := by
    rintro ⟨hm, hs⟩
    have hbelow := hle.resolve_left (Nat.ne_of_gt hs)
    rw [hm]
    omega
  have hodd : x.mantissa % 2 ≠ 0 → d * 2 ^ x.scale ≤ x.mantissa * (d * 2 ^ x.scale) :=
    fun hodd => Nat.le_mul_of_pos_left _ (by omega)
  generalize d * 2 ^ x.scale = D at *
  generalize x.mantissa * D = p at *
  split_ifs <;> omega

/-- What lies in the interval and has a lower scale is just below a power of two, and is rounded up to
it. -/
theorem Covers.rounds_up {q k : Nat} (h : x.Covers q d) (hd : 0 < d) (hscale : x.scale = k + 1)
    (hbelow : q < d * 2 ^ x.scale * 0x10000000000000) : x.mantissa = 0x10000000000000 ∧
      d * 2 ^ k * 0x10000000000000 ≤ q ∧ q < d * 2 ^ k * 0x20000000000000 ∧
      Rounds q (d * 2 ^ k) 0x20000000000000 := by
  have hleast := x.leading.resolve_right (hscale.symm ▸ Nat.succ_ne_zero k)
  have hmul := Nat.mul_le_mul_right (d * 2 ^ x.scale) hleast
  have hstep : 0 < d * 2 ^ x.scale := Nat.mul_pos hd (Nat.pow_pos (by decide))
  rw [Covers, upperEnd_mul, lowerEnd_mul] at h
  have hmantissa : x.mantissa = 0x10000000000000 := by
    refine Nat.le_antisymm (Nat.le_of_not_lt fun hmore => ?_) hleast
    have hmul := Nat.mul_le_mul_right (d * 2 ^ x.scale) hmore
    have hother : ¬(x.mantissa = 0x10000000000000 ∧ 0 < x.scale) := fun hm => Nat.ne_of_gt hmore hm.1
    rw [if_neg hother] at h
    split_ifs at h <;> omega
  have hpower : x.mantissa = 0x10000000000000 ∧ 0 < x.scale :=
    ⟨hmantissa, hscale.symm ▸ Nat.succ_pos k⟩
  have hdouble : d * 2 ^ x.scale = 2 * (d * 2 ^ k) := by
    rw [hscale]
    ring
  rw [if_pos hpower, hmantissa, if_pos (by decide), hdouble] at h
  rw [hdouble] at hbelow hstep
  rw [Rounds, if_pos (by decide)]
  generalize d * 2 ^ k = D at *
  exact ⟨hmantissa, by omega⟩

/-- What is rounded to parts lies in the interval of their number. -/
theorem covers_of_ofParts? {q : Nat} (hd : 0 < d) (hle : s = 0 ∨ d * 2 ^ s * 0x10000000000000 ≤ q)
    (hlt : q < d * 2 ^ s * 0x20000000000000)
    (h : ofParts? (roundHalfEven q (d * 2 ^ s)) s = some x) :
    x.negative = false ∧ x.Covers q d := by
  have hrounds := rounds_roundHalfEven q (Nat.mul_pos hd (Nat.pow_pos (by decide)) : 0 < d * 2 ^ s)
  generalize roundHalfEven q (d * 2 ^ s) = m at h hrounds
  rw [ofParts?] at h
  split at h
  · split at h
    · split at h
      · cases h
        exact ⟨rfl, (covers_iff_rounds hle).2 hrounds⟩
      · cases h
    · cases h
  · next hm =>
    -- the mantissa is rounded up to a power of two
    split at h
    · cases h
      refine ⟨rfl, ?_⟩
      have hdouble : d * 2 ^ (s + 1) = 2 * (d * 2 ^ s) := by ring
      rw [Covers, upperEnd_mul, lowerEnd_mul]
      dsimp only
      rw [hdouble, if_pos (by decide), if_pos ⟨rfl, Nat.succ_pos s⟩]
      obtain ⟨hlow, hhigh⟩ := hrounds.le
      have hmul := Nat.mul_le_mul_right (d * 2 ^ s) (Nat.le_of_not_lt hm)
      omega
    · cases h

/-- In the interval of a number all parts are its own. -/
theorem ofParts?_of_covers {q : Nat} (hd : 0 < d) (hpos : x.negative = false) (h : x.Covers q d) :
    ofParts? (roundHalfEven q (d * Nat.pow 2 ((q / d).log2 - 52))) ((q / d).log2 - 52) = some x := by
  rw [Nat.pow_eq]
  by_cases hle : x.scale = 0 ∨ d * 2 ^ x.scale * 0x10000000000000 ≤ q
  · have hstep : 0 < d * 2 ^ x.scale := Nat.mul_pos hd (Nat.pow_pos (by decide))
    have hrounds := (covers_iff_rounds hle).1 h
    have htop := Nat.mul_le_mul_right (d * 2 ^ x.scale) (Nat.le_of_lt_succ x.mantissa_lt)
    have hlt : q < d * 2 ^ x.scale * 0x20000000000000 := by
      obtain ⟨-, hhigh⟩ := hrounds.le
      omega
    rw [scale_eq hd hlt hle, (roundHalfEven_eq_iff hstep).2 hrounds, ofParts?, dif_pos x.mantissa_lt,
      dif_pos x.scale_le, dif_pos x.leading, ← hpos]
  · obtain ⟨hscale, hbelow⟩ := not_or.1 hle
    obtain ⟨k, hk⟩ := Nat.exists_eq_add_one_of_ne_zero hscale
    obtain ⟨hmantissa, hleast, hmost, hrounds⟩ := h.rounds_up hd hk (Nat.lt_of_not_le hbelow)
    have hhalf : 0 < d * 2 ^ k := Nat.mul_pos hd (Nat.pow_pos (by decide))
    obtain ⟨negative, m, s, hm, hs, hlead⟩ := x
    obtain rfl : negative = false := hpos
    obtain rfl : m = 0x10000000000000 := hmantissa
    obtain rfl : s = k + 1 := hk
    rw [scale_eq hd hmost (.inr hleast), (roundHalfEven_eq_iff hhalf).2 hrounds, ofParts?,
      dif_neg (by decide), dif_pos hs]

/-- **A quotient is rounded to a number if and only if it lies in the interval of the number**, the ends
of which belong to it if the mantissa is even. -/
theorem nearest_eq_some_iff (hd : 0 < d) :
    nearest n d = some x ↔ x.negative = false ∧ x.Covers (n * unitsPerOne) d := by
  rw [nearest]
  constructor
  · intro h
    refine covers_of_ofParts? hd ?_ (lt_of_scale hd) h
    exact (scale_cases (n * unitsPerOne) d).imp_right And.right
  · rintro ⟨hpos, h⟩
    exact ofParts?_of_covers hd hpos h

/-! ## What follows -/

/-- In the interval a quotient is off by at most half a step. -/
theorem Covers.le {q : Nat} (h : x.Covers q d) : 2 * (x.units * d) ≤ 2 * q + d * 2 ^ x.scale ∧
    2 * q ≤ 2 * (x.units * d) + d * 2 ^ x.scale := by
  have hunits : x.units * d = x.mantissa * (d * 2 ^ x.scale) := by
    rw [units, Nat.pow_eq]
    ring
  rw [Covers, upperEnd_mul, lowerEnd_mul] at h
  rw [hunits]
  split_ifs at h <;> omega

/-- The number itself lies in its interval. -/
theorem covers_units (x : Binary64) (hd : 0 < d) : x.Covers (x.units * d) d := by
  have hunits : x.units * d = x.mantissa * (d * 2 ^ x.scale) := by
    rw [units, Nat.pow_eq]
    ring
  have hstep : 0 < d * 2 ^ x.scale := Nat.mul_pos hd (Nat.pow_pos (by decide))
  have hodd : x.mantissa % 2 ≠ 0 → d * 2 ^ x.scale ≤ x.mantissa * (d * 2 ^ x.scale) :=
    fun hodd => Nat.le_mul_of_pos_left _ (by omega)
  rw [Covers, upperEnd_mul, lowerEnd_mul, hunits]
  split_ifs <;> omega

/-- What is a number of the format is rounded to itself. -/
theorem nearest_of_units (hd : 0 < d) (hpos : x.negative = false) (h : n * unitsPerOne = x.units * d) :
    nearest n d = some x := by
  refine (nearest_eq_some_iff hd).2 ⟨hpos, ?_⟩
  rw [h]
  exact x.covers_units hd

/-! ## Whole numbers that are exact -/

/-- Whole numbers of 53 binary digits are numbers of the format. -/
theorem exists_units_eq (hn : n < 0x20000000000000) :
    ∃ x : Binary64, x.negative = false ∧ x.units = n * unitsPerOne := by
  rcases Nat.eq_zero_or_pos n with rfl | hpos
  · exact ⟨.zero, rfl, by rw [units, zero, Nat.zero_mul, Nat.zero_mul]⟩
  obtain ⟨t, ht⟩ : ∃ t, t = 1074 := ⟨_, rfl⟩
  have hlog : n.log2 < 53 := (Nat.log2_lt (Nat.ne_of_gt hpos)).2 hn
  obtain ⟨j, hj⟩ : ∃ j, n.log2 + j = 52 := ⟨52 - n.log2, by omega⟩
  have hleast : 0x10000000000000 ≤ n * 2 ^ j := by
    calc 0x10000000000000 = 2 ^ n.log2 * 2 ^ j := by rw [← Nat.pow_add, hj]
      _ ≤ n * 2 ^ j := Nat.mul_le_mul_right _ (Nat.log2_self_le (Nat.ne_of_gt hpos))
  have hmost : n * 2 ^ j < 0x20000000000000 := by
    calc n * 2 ^ j < 2 ^ (n.log2 + 1) * 2 ^ j :=
          Nat.mul_lt_mul_of_pos_right Nat.lt_log2_self (Nat.pow_pos (by decide))
      _ = 0x20000000000000 := by rw [← Nat.pow_add, show n.log2 + 1 + j = 53 by omega]
  refine ⟨⟨false, n * 2 ^ j, t - j, hmost, by omega, .inl hleast⟩, rfl, ?_⟩
  rw [units, unitsPerOne_eq ht]
  dsimp only
  rw [Nat.pow_eq, Nat.mul_assoc, ← Nat.pow_add, Nat.add_sub_cancel' (by omega)]

theorem units_ofNat (hn : n < 0x20000000000000) :
    (ofNat n).negative = false ∧ (ofNat n).units = n * unitsPerOne := by
  obtain ⟨x, hpos, hx⟩ := exists_units_eq hn
  have hexact : nearest n 1 = some x :=
    nearest_of_units Nat.one_pos hpos (by rw [hx, Nat.mul_one])
  rw [ofNat, hexact, Option.getD_some]
  exact ⟨hpos, hx⟩

end IndexFeed.Binary64
