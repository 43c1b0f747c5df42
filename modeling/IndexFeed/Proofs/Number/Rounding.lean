import IndexFeed.Proofs.Number.Shortest

/-!
# Rounding stays in range

What `nearest` gives is off by at most half a step of the format, and it gives a number whenever the
quotient is nearer to a number of the format than to the first power of two beyond it.
-/

set_option autoImplicit false

namespace IndexFeed.Binary64

variable {n d m s : Nat} {x y : Binary64}

/-! ## Whole numbers -/

theorem le_roundHalfEven (n d : Nat) : n / d ≤ roundHalfEven n d := by
  rw [roundHalfEven]
  split
  · exact Nat.le_refl _
  · split
    · exact Nat.le_succ _
    · exact Nat.le_add_right _ _

/-- Rounding adds at most a half. -/
theorem roundHalfEven_le (n d : Nat) : 2 * (roundHalfEven n d * d) ≤ 2 * n + d := by
  have hn := Nat.div_add_mod n d
  have hcomm := Nat.mul_comm d (n / d)
  have hsucc := Nat.add_one_mul (n / d) d
  rw [roundHalfEven]
  split
  · omega
  · split
    · omega
    · rcases Nat.mod_two_eq_zero_or_one (n / d) with heven | hodd
      · rw [heven, Nat.add_zero]
        omega
      · rw [hodd]
        omega

/-! ## Parts -/

/-- The distance between the largest numbers, in units. -/
def largestStep : Nat := Nat.pow 2 2045

-- the power is kept out of sight, so that it is not worked out
theorem largestStep_eq (hs : s = 2045) : largestStep = 2 ^ s := by
  unfold largestStep
  generalize 2045 = t at hs
  rw [hs, Nat.pow_eq]

theorem le_largestStep (hs : s ≤ 2045) : 2 ^ s ≤ largestStep := by
  unfold largestStep
  generalize 2045 = t at hs
  exact Nat.pow_le_pow_right (by decide : 0 < 2) hs

theorem largestStep_pos : 0 < largestStep :=
  Nat.lt_of_lt_of_le (Nat.pow_pos (by decide)) (le_largestStep (Nat.zero_le 2045))

theorem largestStep_lt (hs : 2045 < s) : largestStep * 2 ≤ 2 ^ s := by
  unfold largestStep
  generalize 2045 = t at hs
  exact Nat.pow_le_pow_right (by decide : 0 < 2) hs

theorem ofParts?_isSome (hs : s ≤ 2045) (hlead : 0x10000000000000 ≤ m ∨ s = 0)
    (htop : s = 2045 → m < 0x20000000000000) : (ofParts? m s).isSome = true := by
  by_cases hm : m < 0x20000000000000
  · rw [ofParts?, dif_pos hm, dif_pos hs, dif_pos hlead]
    rfl
  · have hbelow : s + 1 ≤ 2045 := by omega
    rw [ofParts?, dif_neg hm, dif_pos hbelow]
    rfl

theorem ofParts?_spec (h : ofParts? m s = some y) :
    y.units ≤ m * 2 ^ s ∧ (0x10000000000000 ≤ m → 0x10000000000000 * 2 ^ s ≤ y.units) := by
  rw [ofParts?] at h
  split at h
  · split at h
    · split at h
      · cases h
        exact ⟨Nat.le_refl _, fun hm => Nat.mul_le_mul_right _ hm⟩
      · cases h
    · cases h
  · next hm =>
    split at h
    · cases h
      have hunits : 0x10000000000000 * 2 ^ (s + 1) = 0x20000000000000 * 2 ^ s := by
        rw [Nat.pow_succ]
        omega
      refine ⟨?_, fun _ => ?_⟩
      · exact Nat.le_trans (Nat.le_of_eq hunits) (Nat.mul_le_mul_right _ (Nat.le_of_not_lt hm))
      · refine Nat.le_trans ?_ (Nat.le_of_eq hunits.symm)
        exact Nat.mul_le_mul_right _ (by decide)
    · cases h

/-! ## Quotients -/

/-- The scale of a quotient leaves it 53 binary digits in front of the point, or fewer if it is
zero. -/
theorem scale_cases (n d : Nat) :
    (n / d).log2 - 52 = 0 ∨
      (0 < (n / d).log2 - 52 ∧ d * 2 ^ ((n / d).log2 - 52) * 0x10000000000000 ≤ n) := by
  rcases Nat.eq_zero_or_pos ((n / d).log2 - 52) with hzero | hpos
  · exact .inl hzero
  · have hne : n / d ≠ 0 := by
      intro hzero
      rw [hzero] at hpos
      exact absurd hpos (by decide)
    have hlog : (n / d).log2 - 52 + 52 = (n / d).log2 := by omega
    refine .inr ⟨hpos, ?_⟩
    calc d * 2 ^ ((n / d).log2 - 52) * 0x10000000000000
        = d * 2 ^ ((n / d).log2 - 52 + 52) := by rw [Nat.pow_add, Nat.mul_assoc]
      _ = d * 2 ^ (n / d).log2 := by rw [hlog]
      _ ≤ d * (n / d) := Nat.mul_le_mul_left d (Nat.log2_self_le hne)
      _ ≤ n := Nat.mul_div_le n d

/-- A quotient below the middle between the largest number and the power of two beyond it is rounded
to a number. -/
theorem nearest_isSome (hd : 0 < d) (h : 2 * (n * unitsPerOne) < d * (0x3fffffffffffff * largestStep)) :
    (nearest n d).isSome = true := by
  rw [nearest]
  have hround := roundHalfEven_le (n * unitsPerOne)
    (d * Nat.pow 2 ((n * unitsPerOne / d).log2 - 52))
  have hfloor := le_roundHalfEven (n * unitsPerOne)
    (d * Nat.pow 2 ((n * unitsPerOne / d).log2 - 52))
  have hscale := scale_cases (n * unitsPerOne) d
  rw [Nat.pow_eq] at *
  generalize n * unitsPerOne = q at *
  generalize (q / d).log2 - 52 = s at *
  have hstep : 0 < d * 2 ^ s := Nat.mul_pos hd (Nat.pow_pos (by decide))
  rw [← Nat.mul_assoc, Nat.mul_comm d, Nat.mul_assoc] at h
  refine ofParts?_isSome ?_ ?_ fun hs => ?_
  · rcases hscale with rfl | ⟨-, hle⟩
    · exact Nat.zero_le _
    · refine Nat.le_of_not_lt fun hs => ?_
      have hd' := Nat.mul_le_mul_left d (largestStep_lt hs)
      rw [← Nat.mul_assoc] at hd'
      omega
  · rcases hscale with rfl | ⟨-, hle⟩
    · exact .inr rfl
    · exact .inl (Nat.le_trans ((Nat.le_div_iff_mul_le hstep).2 (by rwa [Nat.mul_comm])) hfloor)
  · rw [largestStep_eq hs] at h
    refine Nat.lt_of_not_le fun hm => ?_
    have hround' := Nat.mul_le_mul_right (d * 2 ^ s) hm
    omega

/-- A rounded quotient is off by at most half a step, if it has 53 binary digits in units. -/
theorem units_nearest_le (hy : nearest n d = some y) (hn : d * 0x10000000000000 ≤ n * unitsPerOne) :
    0x20000000000000 * (y.units * d) ≤ 0x20000000000001 * (n * unitsPerOne) := by
  rw [nearest] at hy
  obtain ⟨hle, -⟩ := ofParts?_spec hy
  have hround := roundHalfEven_le (n * unitsPerOne)
    (d * Nat.pow 2 ((n * unitsPerOne / d).log2 - 52))
  have hscale := scale_cases (n * unitsPerOne) d
  rw [Nat.pow_eq] at *
  generalize n * unitsPerOne = q at *
  generalize (q / d).log2 - 52 = s at *
  have hstep : d * 2 ^ s * 0x10000000000000 ≤ q := by
    rcases hscale with rfl | ⟨-, hle⟩
    · rwa [Nat.pow_zero, Nat.mul_one]
    · exact hle
  have hunits := Nat.mul_le_mul_right d hle
  rw [Nat.mul_assoc, Nat.mul_comm (2 ^ s) d] at hunits
  omega

/-- A rounded quotient is at least the power of two below it. -/
theorem le_units_nearest (hy : nearest n d = some y) (k : Nat) (hd : 0 < d) (hk : 52 < k)
    (hn : d * 2 ^ k ≤ n * unitsPerOne) : 2 ^ k ≤ y.units := by
  rw [nearest] at hy
  obtain ⟨-, hge⟩ := ofParts?_spec hy
  have hfloor := le_roundHalfEven (n * unitsPerOne)
    (d * Nat.pow 2 ((n * unitsPerOne / d).log2 - 52))
  have hscale := scale_cases (n * unitsPerOne) d
  rw [Nat.pow_eq] at *
  generalize n * unitsPerOne = q at *
  have hquotient : 2 ^ k ≤ q / d := (Nat.le_div_iff_mul_le hd).2 (by rwa [Nat.mul_comm])
  have hlog : k ≤ (q / d).log2 :=
    (Nat.le_log2 (Nat.ne_of_gt (Nat.lt_of_lt_of_le (Nat.pow_pos (by decide)) hquotient))).2 hquotient
  generalize (q / d).log2 = l at *
  obtain ⟨-, hstep⟩ := hscale.resolve_left (by omega)
  have hmantissa : 0x10000000000000 ≤ roundHalfEven q (d * 2 ^ (l - 52)) := by
    refine Nat.le_trans ((Nat.le_div_iff_mul_le ?_).2 (by rwa [Nat.mul_comm])) hfloor
    exact Nat.mul_pos hd (Nat.pow_pos (by decide))
  calc 2 ^ k ≤ 2 ^ (52 + (l - 52)) := Nat.pow_le_pow_right (by decide) (by omega)
    _ = 0x10000000000000 * 2 ^ (l - 52) := Nat.pow_add ..
    _ ≤ y.units := hge hmantissa

end IndexFeed.Binary64
