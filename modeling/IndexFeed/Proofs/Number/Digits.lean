import Mathlib.Tactic.LinearCombination
import IndexFeed.Proofs.Number.Value

/-!
# The shortest digits are found

On the grids that `shortest` looks at, the last one is fine enough: its step is below the width of the
interval of any number, so one of the two neighbours reads back (`shortest_holds`).  All of this is about
the rational values of numbers and of their digits.
-/

set_option autoImplicit false

namespace IndexFeed

/-- The value of a decimal number. -/
def DecimalForm.value (f : DecimalForm) : ℚ := f.digits * (10 : ℚ) ^ f.exponent

namespace Binary64

variable {n d : Nat} {e : Int} {x : Binary64} {f : DecimalForm}

/-! ## Grids -/

theorem ten_zpow_pos (e : Int) : (0 : ℚ) < (10 : ℚ) ^ e := zpow_pos (by norm_num) e

/-- A power of ten, as the quotient of natural numbers that it is worked out as. -/
theorem ten_zpow_cases (e : Int) :
    (0 ≤ e ∧ (10 : ℚ) ^ e = (Nat.pow 10 e.toNat : Nat)) ∨
      (¬0 ≤ e ∧ (10 : ℚ) ^ e * (Nat.pow 10 e.natAbs : Nat) = 1) := by
  by_cases he : 0 ≤ e
  · obtain ⟨k, rfl⟩ := Int.eq_ofNat_of_zero_le he
    refine .inl ⟨he, ?_⟩
    rw [zpow_natCast, Int.toNat_natCast, Nat.pow_eq, Nat.cast_pow, Nat.cast_ofNat]
  · obtain ⟨k, rfl⟩ : ∃ k : Nat, e = -(k : Int) := ⟨e.natAbs, by omega⟩
    refine .inr ⟨he, ?_⟩
    rw [zpow_neg, zpow_natCast, Int.natAbs_neg, Int.natAbs_natCast, Nat.pow_eq, Nat.cast_pow,
      Nat.cast_ofNat]
    exact inv_mul_cancel₀ (pow_ne_zero k (by norm_num))

theorem quarters_cast (f : DecimalForm) : 0 < (DecimalForm.quarters f).2 ∧
    ((DecimalForm.quarters f).1 : ℚ) =
      f.value * (4 * unitsPerOne) * (DecimalForm.quarters f).2 := by
  rw [DecimalForm.quarters, DecimalForm.value, quartersPerOne]
  rcases ten_zpow_cases f.exponent with ⟨he, hpower⟩ | ⟨he, hpower⟩
  · rw [if_pos he, hpower]
    refine ⟨Nat.one_pos, ?_⟩
    push_cast
    ring
  · rw [if_neg he]
    refine ⟨Nat.pow_pos (by decide), ?_⟩
    dsimp only
    rw [Nat.cast_mul, Nat.cast_mul, Nat.cast_ofNat]
    linear_combination (-(f.digits : ℚ) * (4 * unitsPerOne)) * hpower

theorem readsBack_quarters_iff (x : Binary64) (f : DecimalForm) :
    x.readsBack (DecimalForm.quarters f).1 (DecimalForm.quarters f).2 = true ↔ x.Holds f.value :=
  readsBack_iff_holds (quarters_cast f).1 (quarters_cast f).2

/-- The neighbour below, on the grid with an exponent. -/
def floorOn (x : Binary64) (e : Int) : Nat :=
  if 0 ≤ e then x.units / (unitsPerOne * Nat.pow 10 e.toNat)
  else x.units * Nat.pow 10 e.natAbs / unitsPerOne

theorem floorOn_spec (x : Binary64) (e : Int) :
    (x.floorOn e : ℚ) * 10 ^ e ≤ x.value ∧ x.value < (x.floorOn e + 1 : ℚ) * 10 ^ e := by
  have hone := unitsPerOne_cast_pos
  rw [floorOn, value, le_div_iff₀ hone, div_lt_iff₀ hone]
  rcases ten_zpow_cases e with ⟨he, hpower⟩ | ⟨he, hpower⟩
  · have hstep : 0 < unitsPerOne * Nat.pow 10 e.toNat :=
      Nat.mul_pos unitsPerOne_pos (Nat.pow_pos (by decide))
    rw [if_pos he, hpower]
    constructor
    · have hle := Nat.div_mul_le_self x.units (unitsPerOne * Nat.pow 10 e.toNat)
      rw [← @Nat.cast_le ℚ, Nat.cast_mul, Nat.cast_mul] at hle
      linarith
    · have hlt := Nat.lt_mul_of_div_lt (Nat.lt_succ_self (x.units / (unitsPerOne * Nat.pow 10 e.toNat)))
        hstep
      rw [← @Nat.cast_lt ℚ, Nat.cast_mul, Nat.cast_mul, Nat.cast_succ] at hlt
      linarith
  · have hscale : (0 : ℚ) < (Nat.pow 10 e.natAbs : Nat) := Nat.cast_pos.2 (Nat.pow_pos (by decide))
    rw [if_neg he]
    generalize hb : x.units * Nat.pow 10 e.natAbs / unitsPerOne = b
    constructor
    · have hle := Nat.div_mul_le_self (x.units * Nat.pow 10 e.natAbs) unitsPerOne
      rw [hb, ← @Nat.cast_le ℚ, Nat.cast_mul, Nat.cast_mul] at hle
      refine le_of_mul_le_mul_right ?_ hscale
      calc (b : ℚ) * 10 ^ e * unitsPerOne * (Nat.pow 10 e.natAbs : Nat)
          = b * unitsPerOne * (10 ^ e * (Nat.pow 10 e.natAbs : Nat)) := by ring
        _ ≤ x.units * (Nat.pow 10 e.natAbs : Nat) := by rw [hpower, mul_one]; exact hle
    · have hlt := Nat.lt_mul_of_div_lt (hb.trans_lt (Nat.lt_succ_self b)) unitsPerOne_pos
      rw [← @Nat.cast_lt ℚ, Nat.cast_mul, Nat.cast_mul, Nat.cast_succ] at hlt
      refine lt_of_mul_lt_mul_right ?_ hscale.le
      calc (x.units : ℚ) * (Nat.pow 10 e.natAbs : Nat) < (b + 1) * unitsPerOne := by linarith
        _ = (b + 1 : ℚ) * 10 ^ e * unitsPerOne * (Nat.pow 10 e.natAbs : Nat) := by
            linear_combination (-(b + 1 : ℚ) * unitsPerOne) * hpower

/-- A grid has digits if one of the two neighbours reads back. -/
theorem onGrid_isSome_of_holds (h : (0 < x.floorOn e ∧ x.Holds (x.floorOn e * 10 ^ e)) ∨
    x.Holds ((x.floorOn e + 1 : Nat) * 10 ^ e)) : (x.onGrid e).isSome = true := by
  have hlow := x.readsBack_quarters_iff ⟨x.floorOn e, e⟩
  have hhigh := x.readsBack_quarters_iff ⟨x.floorOn e + 1, e⟩
  unfold onGrid
  dsimp only
  rw [show (if 0 ≤ e then x.units / (unitsPerOne * Nat.pow 10 e.toNat)
    else x.units * Nat.pow 10 e.natAbs / unitsPerOne) = x.floorOn e from rfl]
  generalize hlowFits : (decide (0 < x.floorOn e) && x.readsBack
    (DecimalForm.quarters ⟨x.floorOn e, e⟩).1 (DecimalForm.quarters ⟨x.floorOn e, e⟩).2) = lowFits
  generalize hhighFits : x.readsBack (DecimalForm.quarters ⟨x.floorOn e + 1, e⟩).1
    (DecimalForm.quarters ⟨x.floorOn e + 1, e⟩).2 = highFits
  have hsome : lowFits = true ∨ highFits = true := by
    rcases h with ⟨hpos, hbelow⟩ | habove
    · refine .inl (hlowFits.symm.trans ?_)
      rw [Bool.and_eq_true, decide_eq_true_iff]
      exact ⟨hpos, hlow.2 hbelow⟩
    · exact .inr (hhighFits.symm.trans (hhigh.2 habove))
  rcases hsome with rfl | rfl
  · split_ifs <;> simp_all
  · split_ifs <;> simp_all

/-- A grid has a neighbour that reads back if any of its points does. -/
theorem onGrid_isSome {c : Nat} (hc : 0 < c) (h : x.Holds (c * 10 ^ e)) :
    (x.onGrid e).isSome = true := by
  obtain ⟨hbelow, habove⟩ := x.floorOn_spec e
  have hten := ten_zpow_pos e
  apply onGrid_isSome_of_holds
  rcases Nat.lt_or_ge (x.floorOn e) c with hless | hmore
  · have hle : ((x.floorOn e + 1 : Nat) : ℚ) ≤ c := Nat.cast_le.2 hless
    refine .inr (h.between (.inr ⟨?_, mul_le_mul_of_nonneg_right hle hten.le⟩))
    push_cast
    exact habove.le
  · have hle : (c : ℚ) ≤ x.floorOn e := Nat.cast_le.2 hmore
    exact .inl ⟨Nat.lt_of_lt_of_le hc hmore,
      h.between (.inl ⟨mul_le_mul_of_nonneg_right hle hten.le, hbelow⟩)⟩

/-! ## The leading digit -/

theorem below_iff_value : Below x.units unitsPerOne e ↔ x.value < 10 ^ e := by
  have hone := unitsPerOne_cast_pos
  rw [below_iff, value, div_lt_iff₀ hone]
  rcases ten_zpow_cases e with ⟨he, hpower⟩ | ⟨he, hpower⟩
  · rw [if_pos he, hpower, ← Nat.cast_mul, Nat.cast_lt]
  · have hscale : (0 : ℚ) < (Nat.pow 10 e.natAbs : Nat) := Nat.cast_pos.2 (Nat.pow_pos (by decide))
    have hproduct : (10 : ℚ) ^ e * unitsPerOne * (Nat.pow 10 e.natAbs : Nat) = unitsPerOne := by
      linear_combination (unitsPerOne : ℚ) * hpower
    rw [if_neg he, ← @Nat.cast_lt ℚ, Nat.cast_mul]
    nth_rewrite 2 [← mul_lt_mul_iff_left₀ hscale]
    rw [hproduct]

/-- The search stops at a place that is reached, unless it runs out of places. -/
theorem floorLogTen_reached {fuel : Nat} (h : ¬Below n d (e - fuel)) :
    ¬Below n d (floorLogTen n d fuel e) := by
  induction fuel generalizing e with
  | zero => rwa [Int.natCast_zero, Int.sub_zero] at h
  | succ fuel ih =>
    rw [floorLogTen_succ]
    split
    · refine ih ?_
      rwa [Int.sub_sub, Int.add_comm 1]
    · assumption

/-- The leading digit of a positive number is not zero. -/
theorem leadingPlace_le_value (hx : 0 < x.mantissa) : 10 ^ x.leadingPlace ≤ x.value := by
  have hunits : 0 < x.units := Nat.mul_pos hx (Nat.pow_pos (by decide))
  -- the exponent is kept out of sight, so that its power is not worked out
  obtain ⟨j, hj, hleast⟩ : ∃ j, (309 - (700 : Nat) : Int).natAbs = j ∧ unitsPerOne ≤ Nat.pow 10 j :=
    ⟨391, by decide, by decide +kernel⟩
  have hreached : ¬Below x.units unitsPerOne (309 - (700 : Nat)) := by
    rw [below_iff, if_neg (by decide), hj, Nat.not_lt]
    exact Nat.le_trans hleast (Nat.le_mul_of_pos_left _ hunits)
  rw [← not_lt, ← below_iff_value, leadingPlace]
  exact floorLogTen_reached hreached

theorem le_leadingPlace (h : 10 ^ e ≤ x.value) : e ≤ x.leadingPlace := by
  have hlt := h.trans_lt (below_iff_value.1 x.leadingPlace_spec.1)
  rw [zpow_lt_zpow_iff_right₀ (by norm_num)] at hlt
  omega

theorem leadingPlace_lt (hx : 0 < x.mantissa) (h : x.value < 10 ^ e) : x.leadingPlace < e := by
  have hlt := (leadingPlace_le_value hx).trans_lt h
  rwa [zpow_lt_zpow_iff_right₀ (by norm_num)] at hlt

/-! ## The grids of a number -/

/-- Sixteen places below the leading digit, the points of a grid are nearer to each other than the ends
of the interval. -/
theorem holds_of_fine (h : 10 ^ e * 10 ^ 16 ≤ x.value) : ∃ c : Nat, 0 < c ∧ x.Holds (c * 10 ^ e) := by
  obtain ⟨hbelow, habove⟩ := x.floorOn_spec e
  have hten := ten_zpow_pos e
  have hstep := x.step_pos
  rw [x.value_eq] at h
  have hpos : 0 < x.floorOn e := by
    refine Nat.pos_of_ne_zero fun hzero => ?_
    rw [hzero, Nat.cast_zero, zero_add, one_mul, x.value_eq] at habove
    linarith
  generalize (10 : ℚ) ^ e = g at *
  by_cases hpower : x.mantissa = 0x10000000000000 ∧ 0 < x.scale
  · -- the number below is nearer, and the point above is in the interval
    have hmantissa : (x.mantissa : ℚ) = 0x10000000000000 := by
      rw [hpower.1]
      norm_num
    rw [hmantissa] at h
    refine ⟨x.floorOn e + 1, Nat.succ_pos _, .of_lt ?_ ?_⟩
    · push_cast
      linarith [x.gapBelow_pos]
    · push_cast
      linarith
  · have hmantissa : (x.mantissa : ℚ) * x.step ≤ 0x20000000000000 * x.step := by
      refine mul_le_mul_of_nonneg_right ?_ hstep.le
      exact_mod_cast x.mantissa_lt.le
    have hgap : x.gapBelow = x.step / 2 := if_neg hpower
    rcases le_total (x.value - x.floorOn e * g) (g / 2) with hnear | hfar
    · exact ⟨x.floorOn e, hpos, .of_lt (by linarith) (by linarith)⟩
    · refine ⟨x.floorOn e + 1, Nat.succ_pos _, .of_lt ?_ ?_⟩
      · push_cast
        linarith
      · push_cast
        linarith

/-- Zeros at the end make no difference to the value. -/
theorem value_dropZeros (fuel : Nat) (f : DecimalForm) : (dropZeros fuel f).value = f.value := by
  induction fuel generalizing f with
  | zero => rw [dropZeros]
  | succ fuel ih =>
    rw [dropZeros]
    split
    · next hzero =>
      have hdigits : (f.digits : ℚ) = (f.digits / 10 : Nat) * 10 := by
        exact_mod_cast (Nat.div_mul_cancel (Nat.dvd_of_mod_eq_zero hzero.1)).symm
      rw [ih, DecimalForm.value, DecimalForm.value, hdigits, zpow_add_one₀ (by norm_num)]
      ring
    · rfl

/-- **The shortest digits lie in the interval of their number**, and on the first grid that has a point
there. -/
theorem shortest_spec {c k : Nat} (hc : 0 < c) (hk : k < 17)
    (h : x.Holds (c * 10 ^ (x.leadingPlace - k))) :
    x.Holds x.shortest.value ∧ x.leadingPlace - k ≤ x.shortest.exponent := by
  have hhit := onGrid_isSome hc h
  have hfound : ((List.range 17).findSome? fun k : Nat => x.onGrid (x.leadingPlace - (k : Int))).isSome
      = true := List.findSome?_isSome_iff.2 ⟨k, List.mem_range.2 hk, hhit⟩
  obtain ⟨f, hf⟩ := Option.isSome_iff_exists.1 hfound
  obtain ⟨before, j, later, hrange, hj, hnone⟩ := List.findSome?_eq_some_iff.1 hf
  -- the grids in front of it have no point in the interval
  have hjk : j ≤ k := by
    have hsorted := List.pairwise_lt_range (n := 17)
    have hmem := List.mem_range.2 hk
    rw [hrange] at hsorted hmem
    obtain ⟨-, htail, -⟩ := List.pairwise_append.1 hsorted
    rcases List.mem_append.1 hmem with hbefore | hrest
    · rw [hnone k hbefore] at hhit
      exact absurd hhit (by decide)
    · rcases List.mem_cons.1 hrest with rfl | hlater
      · exact Nat.le_refl _
      · exact Nat.le_of_lt ((List.pairwise_cons.1 htail).1 k hlater)
  obtain ⟨hexponent, -, -, hreads⟩ := onGrid_spec hj
  have hholds := (x.readsBack_quarters_iff f).1 hreads
  obtain ⟨-, hle, -⟩ := dropZeros_spec 20 f
  rw [shortest, hf, Option.getD_some, value_dropZeros]
  exact ⟨hholds, by omega⟩

/-- **The shortest digits of a positive number lie in its interval**, and there are no more than
seventeen. -/
theorem shortest_holds (hx : 0 < x.mantissa) :
    x.Holds x.shortest.value ∧ x.leadingPlace - (16 : Nat) ≤ x.shortest.exponent := by
  have hplace := leadingPlace_le_value hx
  have hfine : (10 : ℚ) ^ (x.leadingPlace - (16 : Nat)) * 10 ^ 16 ≤ x.value := by
    rw [zpow_sub₀ (by norm_num), zpow_natCast, div_mul_cancel₀ _ (by norm_num)]
    exact hplace
  obtain ⟨c, hc, hholds⟩ := holds_of_fine hfine
  exact shortest_spec hc (by decide) hholds

end Binary64

end IndexFeed
