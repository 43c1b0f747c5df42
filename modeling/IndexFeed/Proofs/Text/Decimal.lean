import IndexFeed.Proofs.Text.Width

/-!
# Numerals there and back

A number that has been written in decimal is read as itself, so no two numbers are written alike.  It
is read so too where a sign could stand in front.
-/

set_option autoImplicit false

namespace IndexFeed.Decimal

variable {n : Nat}

theorem isDigit_digit (h : n < 10) : (digit n).isDigit = true := by
  revert n
  decide

theorem toNat_digit (h : n < 10) : (digit n).toNat - 0x30 = n := by
  revert n
  decide

/-- One digit more. -/
theorem value?_concat (cs : List Char) (h : n < 10) :
    value? (cs ++ [digit n]) = (value? cs).map (· * 10 + n) := by
  rw [value?, List.foldlM_append, ← value?]
  cases value? cs with
  | none => rfl
  | some m => simp [isDigit_digit h, toNat_digit h]

/-- The digits of a number write this number. -/
theorem value?_chars (n : Nat) : value? (chars n) = some n := by
  fun_induction chars n with
  | case1 n hn => simpa [value?] using value?_concat [] hn
  | case2 n hn ih =>
    rw [value?_concat _ (Nat.mod_lt n (by decide)), ih, Option.map_some, Nat.div_add_mod']

theorem chars_injective : Function.Injective chars := fun m n h => by
  have hvalue := value?_chars m
  rw [h, value?_chars, Option.some.injEq] at hvalue
  exact hvalue.symm

theorem chars_ne_nil (n : Nat) : chars n ≠ [] := by
  rw [chars]
  split <;> simp

theorem int?_text (n : Nat) : int? (text n) = some (n : Int) := by
  have hvalue : unsigned? (chars n) = some n := by
    rw [unsigned?, if_neg (by simp [chars_ne_nil]), value?_chars]
  rw [int?, text, String.toList_ofList]
  split
  · next hsign => exact absurd (isDigit_of_mem_chars (hsign ▸ List.mem_cons_self)) (by decide)
  · next hsign => exact absurd (isDigit_of_mem_chars (hsign ▸ List.mem_cons_self)) (by decide)
  · rw [hvalue]
    rfl

end IndexFeed.Decimal
