import Mathlib.Tactic.Ring
import IndexFeed.Proofs.Json.FloatText
import IndexFeed.Proofs.Number.Rounding

/-!
# The texts of floats are in range

The shortest digits of a number lie between its neighbours, and reading them rounds three times at
most.  So whatever is read from the text of a finite number is finite again, be it the largest one.
-/

set_option autoImplicit false

namespace IndexFeed

open Json (magnitude?)

namespace Binary64

variable {x y : Binary64} {f : DecimalForm} {n k : Nat} {e : Int}

/-! ## What the shortest digits come to -/

/-- A decimal number is at most so many quarters of a unit. -/
def AtMost (q : Nat) (f : DecimalForm) : Prop :=
  (DecimalForm.quarters f).1 ≤ q * (DecimalForm.quarters f).2

theorem le_of_readsBack {d : Nat} (h : x.readsBack n d = true) : n ≤ x.upperEnd * d := by
  rw [readsBack] at h
  split at h
  · rw [Bool.and_eq_true, decide_eq_true_iff, decide_eq_true_iff] at h
    exact h.2
  · rw [Bool.and_eq_true, decide_eq_true_iff, decide_eq_true_iff] at h
    exact Nat.le_of_lt h.2

/-- A zero less at the end of the digits makes no difference. -/
theorem AtMost.drop {q : Nat} (h : AtMost q f) (hzero : f.digits % 10 = 0) :
    AtMost q ⟨f.digits / 10, f.exponent + 1⟩ := by
  obtain ⟨d, e⟩ := f
  have hd : d = 10 * (d / 10) := by
    have := Nat.div_add_mod d 10
    dsimp only at hzero
    omega
  dsimp only
  generalize d / 10 = c at hd
  subst hd
  unfold AtMost DecimalForm.quarters at *
  dsimp only at *
  by_cases he : 0 ≤ e
  · have hplaces : (e + 1).toNat = e.toNat + 1 := by omega
    have hnext : 0 ≤ e + 1 := by omega
    rw [if_pos he, Nat.pow_eq] at h
    rw [if_pos hnext, hplaces, Nat.pow_eq, Nat.pow_succ]
    calc c * (10 ^ e.toNat * 10) * quartersPerOne = 10 * c * 10 ^ e.toNat * quartersPerOne := by ring
      _ ≤ q * 1 := h
  · rw [if_neg he, Nat.pow_eq] at h
    dsimp only at h
    by_cases hlast : e = -1
    · subst hlast
      have hten : 10 * c * quartersPerOne ≤ q * 10 := h
      have hpower : c * Nat.pow 10 (-1 + 1 : Int).toNat * quartersPerOne = c * quartersPerOne := by
        rw [show (-1 + 1 : Int).toNat = 0 from rfl, Nat.pow_eq, Nat.pow_zero, Nat.mul_one]
      rw [if_pos (by decide), hpower]
      rw [Nat.mul_assoc] at hten
      omega
    · have hplaces : e.natAbs = (e + 1).natAbs + 1 := by omega
      have hnext : ¬0 ≤ e + 1 := by omega
      rw [hplaces, Nat.pow_succ, ← Nat.mul_assoc] at h
      rw [if_neg hnext, Nat.pow_eq]
      rw [Nat.mul_assoc] at h
      dsimp only
      omega

theorem AtMost.dropZeros {q : Nat} (fuel : Nat) (h : AtMost q f) : AtMost q (dropZeros fuel f) := by
  induction fuel generalizing f with
  | zero => exact h
  | succ fuel ih =>
    rw [Binary64.dropZeros]
    split
    · next hzero => exact ih (h.drop hzero.1)
    · exact h

/-- The shortest digits do not come to more than the upper end of the interval of their number. -/
theorem shortest_atMost (x : Binary64) : AtMost x.upperEnd x.shortest := by
  rw [shortest]
  refine AtMost.dropZeros 20 ?_
  cases hfound : (List.range 17).findSome? fun (k : Nat) => x.onGrid (x.leadingPlace - (k : Int)) with
  | none =>
    have hzero : (DecimalForm.quarters ⟨0, 0⟩).1 = 0 := by
      rw [DecimalForm.quarters, if_pos (Int.le_refl 0), Nat.zero_mul, Nat.zero_mul]
    rw [Option.getD_none, AtMost, hzero]
    exact Nat.zero_le _
  | some f =>
    obtain ⟨k, -, hgrid⟩ := List.exists_of_findSome?_eq_some hfound
    exact le_of_readsBack (onGrid_spec hgrid).2.2.2

/-! ## What is read is finite -/

theorem unitsPerOne_eq (hk : k = 1074) : unitsPerOne = 2 ^ k := by
  unfold unitsPerOne
  generalize 1074 = t at hk
  rw [hk, Nat.pow_eq]

theorem unitsPerOne_pos : 0 < unitsPerOne := by
  obtain ⟨k, hk⟩ : ∃ k, k = 1074 := ⟨_, rfl⟩
  rw [unitsPerOne_eq hk]
  exact Nat.pow_pos (by decide)

/-- Quotients up to the largest power of ten in range are rounded to numbers. -/
theorem nearest_isSome_of_le {d : Nat} (hd : 0 < d) (hn : n ≤ d * Nat.pow 10 308) :
    (nearest n d).isSome = true := by
  have hlargest : 2 * (Nat.pow 10 308 * unitsPerOne) < 0x3fffffffffffff * largestStep := by
    decide +kernel
  refine nearest_isSome hd (Nat.lt_of_le_of_lt ?_ (Nat.mul_lt_mul_of_pos_left hlargest hd))
  generalize Nat.pow 10 308 = p at hn ⊢
  calc 2 * (n * unitsPerOne) ≤ 2 * (d * p * unitsPerOne) :=
        Nat.mul_le_mul_left 2 (Nat.mul_le_mul_right unitsPerOne hn)
    _ = d * (2 * (p * unitsPerOne)) := by ring

theorem nearest_ofNat (hn : n ≤ Nat.pow 10 308) : nearest n 1 = some (ofNat n) := by
  have hsome : (nearest n 1).isSome = true := by
    refine nearest_isSome_of_le Nat.one_pos ?_
    generalize Nat.pow 10 308 = p at hn ⊢
    rwa [Nat.one_mul]
  obtain ⟨y, hy⟩ := Option.isSome_iff_exists.1 hsome
  rw [ofNat, hy, Option.getD_some]

theorem units_ofNat_le (hpos : 0 < n) (hn : n ≤ Nat.pow 10 308) :
    0x20000000000000 * (ofNat n).units ≤ 0x20000000000001 * (n * unitsPerOne) := by
  have hone : 0x10000000000000 ≤ unitsPerOne := by decide +kernel
  have hmany : 1 * 0x10000000000000 ≤ n * unitsPerOne :=
    Nat.mul_le_mul hpos hone
  have hle := units_nearest_le (nearest_ofNat hn) hmany
  rwa [Nat.mul_one] at hle

theorem powTen_le (hk : k ≤ 308) : Nat.pow 10 k ≤ Nat.pow 10 308 := by
  generalize 308 = l at hk ⊢
  exact Nat.pow_le_pow_right (by decide) hk

theorem le_units_powTen (hk : k ≤ 308) : unitsPerOne ≤ (powTen k).units := by
  obtain ⟨t, ht⟩ : ∃ t, t = 1074 := ⟨_, rfl⟩
  have hone : 0 < Nat.pow 10 k := Nat.pow_pos (by decide)
  have hle : 1 * 2 ^ t ≤ Nat.pow 10 k * unitsPerOne := by
    rw [← unitsPerOne_eq ht]
    exact Nat.mul_le_mul_right _ hone
  rw [unitsPerOne_eq ht, powTen]
  exact le_units_nearest (nearest_ofNat (powTen_le hk)) t Nat.one_pos (by omega) hle

theorem units_le (x : Binary64) : x.units ≤ 0x1fffffffffffff * largestStep := by
  exact Nat.mul_le_mul (Nat.le_of_lt_succ x.mantissa_lt) (le_largestStep x.scale_le)

/-- A quotient by a power of ten is in range. -/
theorem div_powTen_isSome (x : Binary64) (hk : k ≤ 308) : (x.div (powTen k)).isSome = true := by
  have hone := le_units_powTen hk
  have hpos := Nat.lt_of_lt_of_le unitsPerOne_pos hone
  refine nearest_isSome hpos ?_
  calc 2 * (x.units * unitsPerOne)
      ≤ 2 * (0x1fffffffffffff * largestStep * (powTen k).units) :=
        Nat.mul_le_mul_left 2 (Nat.mul_le_mul x.units_le hone)
    _ = (powTen k).units * (0x3ffffffffffffe * largestStep) := by ring
    _ < (powTen k).units * (0x3fffffffffffff * largestStep) :=
        Nat.mul_lt_mul_of_pos_left (Nat.mul_lt_mul_of_pos_right (by decide) largestStep_pos) hpos

/-- The product of a significand and a power of ten is in range if their exact product is three steps
below the end of the range. -/
theorem mul_powTen_isSome (hpos : 0 < n) (hn : n ≤ Nat.pow 10 308) (hk : k ≤ 308)
    (h : n * Nat.pow 10 k * quartersPerOne ≤ 0x7ffffffffffff2 * largestStep) :
    ((ofNat n).mul (powTen k)).isSome = true := by
  have hX := units_ofNat_le hpos hn
  have hY := units_ofNat_le (Nat.pow_pos (by decide : 0 < 10)) (powTen_le hk)
  have hone := unitsPerOne_pos
  rw [mul, powTen]
  rw [quartersPerOne] at h
  refine nearest_isSome (Nat.mul_pos hone hone) ?_
  generalize (ofNat n).units = X at *
  generalize (ofNat (Nat.pow 10 k)).units = Y at *
  rw [← Nat.pow_eq] at hY
  generalize Nat.pow 10 k = t at *
  generalize unitsPerOne = one at *
  have hproduct : 0x20000000000000 * 0x20000000000000 * 4 * (X * Y) ≤
      0x20000000000001 * 0x20000000000001 * 0x7ffffffffffff2 * (one * largestStep) := by
    calc 0x20000000000000 * 0x20000000000000 * 4 * (X * Y)
        = 4 * (0x20000000000000 * X * (0x20000000000000 * Y)) := by ring
      _ ≤ 4 * (0x20000000000001 * (n * one) * (0x20000000000001 * (t * one))) :=
          Nat.mul_le_mul_left 4 (Nat.mul_le_mul hX hY)
      _ = 0x20000000000001 * 0x20000000000001 * one * (n * t * (4 * one)) := by ring
      _ ≤ 0x20000000000001 * 0x20000000000001 * one * (0x7ffffffffffff2 * largestStep) :=
          Nat.mul_le_mul_left _ h
      _ = 0x20000000000001 * 0x20000000000001 * 0x7ffffffffffff2 * (one * largestStep) := by ring
  have hroom : 0 < one * largestStep := Nat.mul_pos hone largestStep_pos
  have htwice : 2 * (X * Y) < one * (0x3fffffffffffff * largestStep) := by
    have hsame : one * (0x3fffffffffffff * largestStep) = 0x3fffffffffffff * (one * largestStep) := by
      ring
    omega
  calc 2 * (X * Y * one) = 2 * (X * Y) * one := by ring
    _ < one * (0x3fffffffffffff * largestStep) * one := Nat.mul_lt_mul_of_pos_right htwice hone
    _ = one * one * (0x3fffffffffffff * largestStep) := by ring

end Binary64

namespace Json

open Binary64 (powTen)

theorem scaleDown_isSome (x : Binary64) (places : Nat) : (scaleDown x places).isSome = true := by
  fun_induction scaleDown x places with
  | case1 x places hle => exact x.div_powTen_isSome hle
  | case2 x places hgt hzero => rfl
  | case3 x places hgt hzero ih =>
    obtain ⟨y, hy⟩ := Option.isSome_iff_exists.1 (x.div_powTen_isSome (Nat.le_refl 308))
    rw [hy, Option.bind_some]
    exact ih y

/-- Dividing by a power of ten does not lead out of the range. -/
theorem magnitude?_isSome_of_neg {s : Nat} {e : Int} (he : ¬0 ≤ e) :
    (magnitude? s e).isSome = true := by
  rw [magnitude?, if_neg he]
  exact scaleDown_isSome _ _

end Json

namespace Binary64

variable {x : Binary64}

/-- The largest number and the two below it. -/
def IsTop (x : Binary64) : Prop := 0x1ffffffffffffd ≤ x.mantissa ∧ x.scale = 2045

instance (x : Binary64) : Decidable x.IsTop := inferInstanceAs (Decidable (_ ∧ _))

theorem magnitude?_of_isTop (h : x.IsTop) :
    (magnitude? x.shortest.digits x.shortest.exponent).isSome = true := by
  obtain ⟨negative, m, s, hm, hs, hl⟩ := x
  obtain ⟨hlarge, hscale⟩ := h
  dsimp only at hlarge hscale
  subst hscale
  obtain rfl | rfl | rfl : m = 0x1ffffffffffffd ∨ m = 0x1ffffffffffffe ∨ m = 0x1fffffffffffff := by
    omega
  all_goals
    revert negative hm hs hl
    decide +kernel

/-- All other numbers end three steps below the end of the range. -/
theorem upperEnd_le (h : ¬x.IsTop) : x.upperEnd ≤ 0x7ffffffffffff2 * largestStep := by
  have hm := x.mantissa_lt
  have hpow : x.scale < 2045 → Nat.pow 2 x.scale * 2 ≤ largestStep := le_largestStep
  have hlast : x.scale = 2045 → Nat.pow 2 x.scale = largestStep := fun hs => (largestStep_eq hs).symm
  have hs := x.scale_le
  rw [IsTop, not_and] at h
  rw [upperEnd, centre, units]
  generalize Nat.pow 2 x.scale = p at *
  by_cases htop : x.scale = 2045
  · have hsmall : x.mantissa ≤ 0x1ffffffffffffc := by
      refine Nat.le_of_not_lt fun hlarge => h hlarge htop
    have hmul := Nat.mul_le_mul_right p hsmall
    have hp := hlast htop
    omega
  · have hmul := Nat.mul_le_mul_right p (Nat.le_of_lt_succ hm)
    have hp := hpow (by omega)
    omega

/-- The digits of a number that is no whole number below the exponents are multiplied in range. -/
theorem magnitude?_shortest (h : ¬x.IsTop) (hpos : 0 < x.shortest.digits)
    (he : 0 ≤ x.shortest.exponent) :
    (magnitude? x.shortest.digits x.shortest.exponent).isSome = true := by
  have hdigits := x.short_shortest.digits
  have hatMost := x.shortest_atMost
  have hupper := upperEnd_le h
  rw [AtMost, DecimalForm.quarters, if_pos he, Nat.mul_one] at hatMost
  have hin := Nat.le_trans hatMost hupper
  obtain ⟨l, hl, hfar⟩ : ∃ l ≤ 309,
      0x7ffffffffffff2 * largestStep < 1 * Nat.pow 10 l * quartersPerOne :=
    ⟨309, Nat.le_refl _, by decide +kernel⟩
  have hk : x.shortest.exponent.toNat ≤ 308 := by
    refine Nat.le_of_not_lt fun hk => Nat.lt_irrefl (0x7ffffffffffff2 * largestStep) ?_
    have hpow : Nat.pow 10 l ≤ Nat.pow 10 x.shortest.exponent.toNat :=
      Nat.pow_le_pow_right (by decide) (Nat.le_trans hl hk)
    calc 0x7ffffffffffff2 * largestStep < 1 * Nat.pow 10 l * quartersPerOne := hfar
      _ ≤ x.shortest.digits * Nat.pow 10 x.shortest.exponent.toNat * quartersPerOne :=
          Nat.mul_le_mul_right _ (Nat.mul_le_mul hpos hpow)
      _ ≤ 0x7ffffffffffff2 * largestStep := hin
  have hn : x.shortest.digits ≤ Nat.pow 10 308 :=
    Nat.le_trans (Nat.le_of_lt hdigits) (powTen_le (k := 18) (by decide))
  have hexponent : x.shortest.exponent ≤ 308 := by omega
  rw [magnitude?, if_pos he, if_pos hexponent]
  exact mul_powTen_isSome hpos hn hk hin

/-- **Something is read from the text of every number.** -/
theorem reread?_isSome (x : Binary64) : x.reread?.isSome = true := by
  have hneg : ∀ {s : Nat} {e : Int}, ¬0 ≤ e → (magnitude? s e).isSome = true :=
    Json.magnitude?_isSome_of_neg
  rw [reread?, Option.isSome_map, written]
  by_cases hzero : x.isZero = true
  · rw [if_pos hzero]
    exact hneg (by decide)
  rw [if_neg hzero]
  by_cases hwhole : 0 ≤ x.shortest.exponent ∧
      x.shortest.exponent + (Decimal.chars x.shortest.digits).length ≤ 16
  · simp only [if_pos hwhole]
    exact hneg (by decide)
  simp only [if_neg hwhole]
  by_cases he : 0 ≤ x.shortest.exponent
  · by_cases htop : x.IsTop
    · exact magnitude?_of_isTop htop
    · refine magnitude?_shortest htop (Nat.pos_of_ne_zero fun hnone => hwhole ?_) he
      have hexponent := x.shortest_pos.resolve_left (by omega)
      have hlength : (Decimal.chars 0).length = 1 := by decide +kernel
      rw [hnone, hlength, hexponent]
      decide
  · exact hneg he

/-- The number that is read from the text of a number. -/
def reread (x : Binary64) : Binary64 := x.reread?.getD x

theorem reread?_eq (x : Binary64) : x.reread? = some x.reread := by
  obtain ⟨y, hy⟩ := Option.isSome_iff_exists.1 x.reread?_isSome
  rw [reread, hy, Option.getD_some]

end Binary64

end IndexFeed
