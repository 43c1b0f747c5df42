import IndexFeed.Number.Shortest
import IndexFeed.Proofs.Text.Width

/-!
# How long the text of a number gets

The shortest digits of a binary64 number are at most eighteen: they are read off a grid whose step
is at most sixteen places below the leading digit.  So the text of a number, whatever its layout
adds, has no more than twenty-five characters.
-/

set_option autoImplicit false

namespace IndexFeed.Binary64

variable {n d : Nat} {x : Binary64} {f : DecimalForm}

/-! ## The leading digit -/

/-- The quotient `n / d` is below `10 ^ e`. -/
structure Below (n d : Nat) (e : Int) : Prop where
  lt : if 0 ≤ e then n < Nat.pow 10 e.toNat * d else n * Nat.pow 10 e.natAbs < d

theorem below_iff {n d : Nat} {e : Int} : Below n d e ↔
    if 0 ≤ e then n < Nat.pow 10 e.toNat * d else n * Nat.pow 10 e.natAbs < d :=
  ⟨Below.lt, Below.mk⟩

instance (n d : Nat) (e : Int) : Decidable (Below n d e) := decidable_of_iff' _ below_iff

/-- The search goes down as long as it stands above the number. -/
theorem floorLogTen_succ (n d fuel : Nat) (e : Int) :
    floorLogTen n d (fuel + 1) e = if Below n d e then floorLogTen n d fuel (e - 1) else e := by
  by_cases he : 0 ≤ e
  · simp only [floorLogTen, below_iff, if_pos he, ← Nat.not_le, ite_not]
  · simp only [floorLogTen, below_iff, if_neg he, ← Nat.not_le, ite_not]

/-- The search ends at a place above which there is no digit, and not too far down. -/
theorem floorLogTen_spec (fuel : Nat) {e : Int} (h : Below n d (e + 1)) :
    Below n d (floorLogTen n d fuel e + 1) ∧ floorLogTen n d fuel e ≤ e ∧
      e - fuel ≤ floorLogTen n d fuel e := by
  induction fuel generalizing e with
  | zero => exact ⟨h, Int.le_refl e, Int.sub_le_self e (Int.natCast_nonneg 0)⟩
  | succ fuel ih =>
    rw [floorLogTen_succ]
    split
    · next hbelow =>
      rw [← Int.sub_add_cancel e 1] at hbelow
      obtain ⟨hend, hle, hge⟩ := ih hbelow
      exact ⟨hend, by omega, by omega⟩
    · exact ⟨h, Int.le_refl e, Int.sub_le_self e (Int.natCast_nonneg _)⟩

theorem units_lt {k s t : Nat} (hk : x.scale ≤ k) (hst : 53 + k = s + t) :
    x.units < 2 ^ s * 2 ^ t := by
  rw [← Nat.pow_add, ← hst, Nat.pow_add]
  calc x.units ≤ x.mantissa * 2 ^ k :=
        Nat.mul_le_mul_left _ (Nat.pow_le_pow_right (by decide) hk)
    _ < 2 ^ 53 * 2 ^ k := Nat.mul_lt_mul_of_pos_right x.mantissa_lt (Nat.pow_pos (by decide))

theorem two_pow_le_ten_pow (k : Nat) : 2 ^ (93 * k + 1) ≤ 10 ^ (28 * k + 2) := by
  rw [Nat.pow_add, Nat.pow_add, Nat.pow_mul, Nat.pow_mul]
  exact Nat.mul_le_mul (Nat.pow_le_pow_left (by decide) k) (by decide)

theorem below_of_lt {s t k : Nat} (hs : s = 93 * k + 1) (hn : n < 2 ^ s * 2 ^ t) :
    Below n (Nat.pow 2 t) ((28 * k + 2 : Nat) : Int) := by
  rw [below_iff, if_pos (Int.natCast_nonneg _), Int.toNat_natCast, Nat.pow_eq, Nat.pow_eq]
  rw [hs] at hn
  exact Nat.lt_of_lt_of_le hn (Nat.mul_le_mul_right _ (two_pow_le_ten_pow k))

/-- No number of the format has more than 310 digits in front of the point. -/
theorem below_units (x : Binary64) : Below x.units unitsPerOne ((310 : Nat) : Int) := by
  -- the exponents are kept out of sight, so that no power is worked out
  obtain ⟨s, hs⟩ : ∃ s, s = 93 * 11 + 1 := ⟨_, rfl⟩
  unfold unitsPerOne
  generalize ht : (1074 : Nat) = t
  exact below_of_lt (k := 11) hs (units_lt x.scale_le (by omega))

theorem leadingPlace_spec (x : Binary64) :
    Below x.units unitsPerOne (x.leadingPlace + 1) ∧ x.leadingPlace ≤ 309 ∧
      -391 ≤ x.leadingPlace := by
  obtain ⟨hbelow, hle, hge⟩ := floorLogTen_spec (e := 309) 700 x.below_units
  rw [leadingPlace]
  generalize floorLogTen x.units unitsPerOne 700 309 = e at hbelow hle hge
  exact ⟨hbelow, hle, by omega⟩

/-! ## Digits -/

/-- In steps of a place below the leading digit, a number is below the power of ten that lies
between. -/
theorem lt_pow_of_below {e : Int} {k : Nat} (h : Below n d (e + k)) :
    (if 0 ≤ e then n / (d * Nat.pow 10 e.toNat) else n * Nat.pow 10 e.natAbs / d) < 10 ^ k := by
  rw [below_iff] at h
  split
  · next he =>
    have hplaces : (e + k).toNat = e.toNat + k := by omega
    rw [if_pos (by omega), hplaces] at h
    refine Nat.div_lt_of_lt_mul (Nat.lt_of_lt_of_eq h ?_)
    rw [Nat.pow_eq, Nat.pow_eq, Nat.pow_add]
    ac_rfl
  · next he =>
    split at h
    · next hek =>
      have hplaces : (e + k).toNat + e.natAbs = k := by omega
      refine Nat.div_lt_of_lt_mul ?_
      calc n * Nat.pow 10 e.natAbs < Nat.pow 10 (e + k).toNat * d * Nat.pow 10 e.natAbs :=
            Nat.mul_lt_mul_of_pos_right h (Nat.pow_pos (by decide))
        _ = d * 10 ^ ((e + k).toNat + e.natAbs) := by
            rw [Nat.pow_eq, Nat.pow_eq, Nat.pow_add]
            ac_rfl
        _ = d * 10 ^ k := by rw [hplaces]
    · next hek =>
      have hplaces : e.natAbs = (e + k).natAbs + k := by omega
      refine Nat.div_lt_of_lt_mul ?_
      calc n * Nat.pow 10 e.natAbs = n * Nat.pow 10 (e + k).natAbs * 10 ^ k := by
            rw [hplaces, Nat.pow_eq, Nat.pow_eq, Nat.pow_add]
            ac_rfl
        _ < d * 10 ^ k := Nat.mul_lt_mul_of_pos_right h (Nat.pow_pos (by decide))

/-- What is found on a grid is one of the two neighbours, is not zero and reads back. -/
theorem onGrid_spec {e : Int} (hf : x.onGrid e = some f) :
    f.exponent = e ∧ 0 < f.digits ∧
      f.digits ≤ (if 0 ≤ e then x.units / (unitsPerOne * Nat.pow 10 e.toNat)
        else x.units * Nat.pow 10 e.natAbs / unitsPerOne) + 1 ∧
      x.readsBack (DecimalForm.quarters f).1 (DecimalForm.quarters f).2 = true := by
  unfold onGrid at hf
  dsimp only at hf
  generalize (if 0 ≤ e then x.units / (unitsPerOne * Nat.pow 10 e.toNat)
    else x.units * Nat.pow 10 e.natAbs / unitsPerOne) = below at hf ⊢
  simp only [Bool.and_eq_true, decide_eq_true_eq] at hf
  split at hf
  · next hfits =>
    split at hf
    · cases hf
      exact ⟨rfl, hfits.1.1, Nat.le_succ _, hfits.1.2⟩
    · split at hf
      · cases hf
        exact ⟨rfl, Nat.succ_pos _, Nat.le_refl _, hfits.2⟩
      · cases hf
        split
        · exact ⟨rfl, hfits.1.1, Nat.le_succ _, hfits.1.2⟩
        · exact ⟨rfl, Nat.succ_pos _, Nat.le_refl _, hfits.2⟩
  · split at hf
    · next hfits =>
      cases hf
      exact ⟨rfl, hfits.1, Nat.le_succ _, hfits.2⟩
    · split at hf
      · next hfits =>
        cases hf
        exact ⟨rfl, Nat.succ_pos _, Nat.le_refl _, hfits⟩
      · cases hf

theorem onGrid_digits {e : Int} {k : Nat} (h : Below x.units unitsPerOne (e + k))
    (hf : x.onGrid e = some f) : f.digits ≤ 10 ^ k ∧ f.exponent = e := by
  obtain ⟨hexponent, -, hdigits, -⟩ := onGrid_spec hf
  exact ⟨Nat.le_trans hdigits (lt_pow_of_below h), hexponent⟩

theorem dropZeros_spec (fuel : Nat) (f : DecimalForm) :
    (dropZeros fuel f).digits ≤ f.digits ∧ f.exponent ≤ (dropZeros fuel f).exponent ∧
      (dropZeros fuel f).exponent ≤ f.exponent + fuel := by
  induction fuel generalizing f with
  | zero => exact ⟨Nat.le_refl _, Int.le_refl _, Int.le_add_of_nonneg_right (Int.natCast_nonneg 0)⟩
  | succ fuel ih =>
    rw [dropZeros]
    split
    · obtain ⟨hdigits, hle, hge⟩ := ih ⟨f.digits / 10, f.exponent + 1⟩
      dsimp only at hdigits hle hge
      exact ⟨Nat.le_trans hdigits (Nat.div_le_self _ _), by omega, by omega⟩
    · exact ⟨Nat.le_refl _, Int.le_refl _, Int.le_add_of_nonneg_right (Int.natCast_nonneg _)⟩

/-- Digits and the place of the last one, as far as they go. -/
structure Short (f : DecimalForm) : Prop where
  digits : f.digits < 10 ^ 18
  least : -407 ≤ f.exponent
  most : f.exponent ≤ 329

theorem short_shortest (x : Binary64) : Short x.shortest := by
  have hfound : ∀ f, (List.range 17).findSome? (fun k : Nat => x.onGrid (x.leadingPlace - (k : Int)))
      = some f → f.digits ≤ 10 ^ 17 ∧ -407 ≤ f.exponent ∧ f.exponent ≤ 309 := by
    intro f hf
    obtain ⟨k, hk, hgrid⟩ := List.exists_of_findSome?_eq_some hf
    have hk : k < 17 := List.mem_range.1 hk
    obtain ⟨hbelow, hle, hge⟩ := x.leadingPlace_spec
    have hplace : x.leadingPlace + 1 = x.leadingPlace - (k : Int) + ((k + 1 : Nat) : Int) := by omega
    rw [hplace] at hbelow
    obtain ⟨hdigits, hexponent⟩ := onGrid_digits hbelow hgrid
    refine ⟨Nat.le_trans hdigits (Nat.pow_le_pow_right (by decide) hk), ?_, ?_⟩
    · omega
    · omega
  rw [shortest]
  generalize (List.range 17).findSome? (fun k : Nat => x.onGrid (x.leadingPlace - (k : Int))) = found
    at hfound
  obtain ⟨hdigits, hle, hge⟩ := dropZeros_spec 20 (found.getD ⟨0, 0⟩)
  cases found with
  | none =>
    rw [Option.getD_none] at *
    dsimp only at hdigits hle hge
    refine ⟨?_, ?_, ?_⟩
    · omega
    · omega
    · omega
  | some f =>
    obtain ⟨hfdigits, hfle, hfge⟩ := hfound f rfl
    rw [Option.getD_some] at *
    refine ⟨?_, ?_, ?_⟩
    · omega
    · omega
    · omega

/-! ## Text -/

theorem length_pointAfterFirst_le (ds : List Char) :
    (pointAfterFirst ds).length ≤ ds.length + 1 := by
  match ds with
  | [] => exact Nat.zero_le _
  | [d] => exact Nat.le_succ _
  | d :: e :: r => exact Nat.le_refl _

/-- The digits of a number, laid out: by the place of the first one, which says where the point is. -/
theorem length_layout_le {ds : List Char} {exponent place : Int} (hds : ds.length ≤ 18)
    (hplace : place = exponent + ds.length - 1) (hleast : -407 ≤ exponent)
    (hmost : exponent ≤ 329) :
    (if place < -5 ∨ 15 < place then
        pointAfterFirst ds ++ ['e'] ++ (if place < 0 then ['-'] else ['+'])
          ++ Decimal.chars place.natAbs
      else if 0 ≤ exponent then ds ++ List.replicate exponent.toNat '0' ++ ['.', '0']
      else if 0 ≤ place then
        ds.take (place.toNat + 1) ++ ['.'] ++ ds.drop (place.toNat + 1)
      else ['0', '.'] ++ List.replicate (place.natAbs - 1) '0' ++ ds).length ≤ 24 := by
  split
  · have hpoint := length_pointAfterFirst_le ds
    have hdigits : (Decimal.chars place.natAbs).length ≤ 3 :=
      Decimal.length_chars_le (by decide) (by omega)
    have hsign : (if place < 0 then ['-'] else ['+']).length = 1 := by split <;> rfl
    simp only [List.length_append, List.length_singleton, hsign]
    omega
  · split
    · simp only [List.length_append, List.length_replicate, List.length_cons, List.length_nil]
      omega
    · split
      · simp only [List.length_append, List.length_take, List.length_drop, List.length_singleton]
        omega
      · simp only [List.length_append, List.length_replicate, List.length_cons, List.length_nil]
        omega

/-- **The text of a number has at most twenty-five characters.** -/
theorem length_chars_le (x : Binary64) : x.chars.length ≤ 25 := by
  obtain ⟨hdigits, hleast, hmost⟩ := x.short_shortest
  have hsign : (if x.negative then ['-'] else []).length ≤ 1 := by
    split
    · exact Nat.le_refl 1
    · exact Nat.zero_le 1
  unfold chars charsIn
  dsimp only
  split
  · simp only [List.length_append, Layout.message, List.length_cons, List.length_nil]
    omega
  · have hlayout := length_layout_le (Decimal.length_chars_le (by decide) hdigits) rfl hleast hmost
    rw [List.length_append]
    exact Nat.add_le_add hsign hlayout

/-- Digits, signs, a point and the letter of an exponent. -/
def isNumeric (c : Char) : Bool := c.isDigit || c == '-' || c == '+' || c == '.' || c == 'e'

theorem isNumeric_of_mem_digits {c : Char} (h : c ∈ Decimal.chars n) : isNumeric c = true := by
  rw [isNumeric, Decimal.isDigit_of_mem_chars h]
  rfl

theorem all_pointAfterFirst {ds : List Char} (h : ∀ c ∈ ds, isNumeric c = true) :
    ∀ c ∈ pointAfterFirst ds, isNumeric c = true := by
  match ds with
  | [] => exact h
  | [d] => exact h
  | d :: e :: r =>
    rw [pointAfterFirst, List.forall_mem_cons, List.forall_mem_cons]
    · exact ⟨h d List.mem_cons_self, rfl, fun c hc => h c (List.mem_cons_of_mem d hc)⟩
    · exact nofun

theorem isNumeric_of_mem_chars (x : Binary64) : ∀ c ∈ x.chars, isNumeric c = true := by
  have hdigits : ∀ n, ∀ c ∈ Decimal.chars n, isNumeric c = true := fun _ _ => isNumeric_of_mem_digits
  have hzeros : ∀ n, ∀ c ∈ List.replicate n '0', isNumeric c = true := fun n c hc => by
    rw [List.eq_of_mem_replicate hc]
    rfl
  have hmarks : ∀ cs : List Char, cs.all isNumeric = true → ∀ c ∈ cs, isNumeric c = true :=
    fun _ => List.all_eq_true.1
  have hsign : ∀ c ∈ (if x.negative then ['-'] else []), isNumeric c = true := by
    split
    · exact hmarks ['-'] rfl
    · exact hmarks [] rfl
  unfold chars charsIn
  dsimp only
  split
  · simp only [List.forall_mem_append]
    exact ⟨⟨hsign, hmarks ['0'] rfl⟩, hmarks ['.', '0'] rfl⟩
  · rw [List.forall_mem_append]
    refine ⟨hsign, ?_⟩
    split
    · simp only [List.forall_mem_append]
      refine ⟨⟨⟨all_pointAfterFirst (hdigits _), hmarks ['e'] rfl⟩, ?_⟩, hdigits _⟩
      split
      · exact hmarks ['-'] rfl
      · exact hmarks ['+'] rfl
    · split
      · simp only [List.forall_mem_append]
        exact ⟨⟨hdigits _, hzeros _⟩, hmarks ['.', '0'] rfl⟩
      · split
        · simp only [List.forall_mem_append]
          exact ⟨⟨fun c hc => hdigits _ c (List.mem_of_mem_take hc), hmarks ['.'] rfl⟩,
            fun c hc => hdigits _ c (List.mem_of_mem_drop hc)⟩
        · simp only [List.forall_mem_append]
          exact ⟨⟨hmarks ['0', '.'] rfl, hzeros _⟩, hdigits _⟩

end IndexFeed.Binary64
