import Mathlib.Algebra.Group.Nat.Defs
import IndexFeed.Text.Decimal
import IndexFeed.Text.Utf8

/-!
# How long texts get

The octets of characters, the octets that are left when a text is decoded and written again, and the
digits of a number.
-/

set_option autoImplicit false

namespace IndexFeed

namespace Utf8

variable {c : Char} {cs ds : List Char} {bs : Bytes}

theorem encodeChars_cons (c : Char) (cs : List Char) :
    encodeChars (c :: cs) = String.utf8EncodeChar c ++ encodeChars cs := List.flatMap_cons

theorem encodeChars_append (cs ds : List Char) :
    encodeChars (cs ++ ds) = encodeChars cs ++ encodeChars ds := List.flatMap_append

/-- How many octets a character takes. -/
theorem utf8Size_eq (c : Char) : c.utf8Size =
    if c.toNat < 0x80 then 1 else if c.toNat < 0x800 then 2 else if c.toNat < 0x10000 then 3
    else 4 := by
  have hone : c.val ≤ 0x7f ↔ c.toNat < 0x80 := UInt32.le_iff_toNat_le.trans Nat.lt_succ_iff.symm
  have htwo : c.val ≤ 0x7ff ↔ c.toNat < 0x800 := UInt32.le_iff_toNat_le.trans Nat.lt_succ_iff.symm
  have hthree : c.val ≤ 0xffff ↔ c.toNat < 0x10000 :=
    UInt32.le_iff_toNat_le.trans Nat.lt_succ_iff.symm
  simp only [← hone, ← htwo, ← hthree]
  rfl

theorem length_encodeChars (h : ∀ c ∈ cs, c.utf8Size = 1) : (encodeChars cs).length = cs.length := by
  induction cs with
  | nil => rfl
  | cons c cs ih =>
    rw [List.forall_mem_cons] at h
    rw [encodeChars_cons, List.length_append, String.length_utf8EncodeChar, h.1, ih h.2,
      List.length_cons, Nat.add_comm]

/-! ## Decoding -/

theorem toNat_of_scalar {least n : Nat} (h : scalar? least n = some c) : c.toNat = n := by
  by_cases hvalid : n.isValidChar
  · rw [scalar?, dif_pos hvalid] at h
    by_cases hleast : least ≤ n
    · rw [if_pos hleast] at h
      cases h
      rfl
    · rw [if_neg hleast] at h
      cases h
  · rw [scalar?, dif_neg hvalid] at h
    cases h

theorem payload_lt (b : UInt8) : payload b < 64 := Nat.mod_lt _ (by decide)

/-- A character more takes no more octets than it has been read from. -/
theorem scan_cons_le {k : Nat} {r rest : Bytes} (hc : c.utf8Size ≤ k) (hr : scan r = (cs, rest))
    (ih : (encodeChars (scan r).1).length + (scan r).2.length ≤ r.length) :
    (encodeChars (c :: cs)).length + rest.length ≤ r.length + k := by
  rw [hr] at ih
  dsimp only at ih
  rw [encodeChars_cons, List.length_append, String.length_utf8EncodeChar]
  omega

/-- The characters that octets are read as take no more octets than these. -/
theorem length_scan_le (bs : Bytes) :
    (encodeChars (scan bs).1).length + (scan bs).2.length ≤ bs.length := by
  fun_induction scan bs with
  | case2 a r ha c hc cs rest hr ih =>
    refine scan_cons_le (k := 1) ?_ hr ih
    have ha : a.toNat < 0x80 := UInt8.lt_iff_toNat_lt.1 ha
    exact Nat.le_of_eq (by rw [utf8Size_eq, toNat_of_scalar hc, if_pos ha])
  | case6 a _ b r _ _ c hc cs rest hr ih =>
    refine scan_cons_le (k := 2) ?_ hr ih
    have hn : a.toNat % 32 * 64 + payload b < 0x800 := by
      have := payload_lt b
      omega
    rw [utf8Size_eq, toNat_of_scalar hc, if_pos hn]
    split
    · decide
    · decide
  | case10 a _ b _ _ c r _ _ x hx cs rest hr ih =>
    refine scan_cons_le (k := 3) ?_ hr ih
    have hn : (a.toNat % 16 * 64 + payload b) * 64 + payload c < 0x10000 := by
      have := payload_lt b
      have := payload_lt c
      omega
    rw [utf8Size_eq, toNat_of_scalar hx, if_pos hn]
    split
    · decide
    · split
      · decide
      · decide
  | case14 a _ b _ _ c _ _ d r _ _ x hx cs rest hr ih =>
    exact scan_cons_le (k := 4) (Char.utf8Size_le_four x) hr ih
  | case1 | case3 | case4 | case5 | case7 | case8 | case9 | case11 | case12 | case13 | case15
  | case16 => exact Nat.le_of_eq (Nat.zero_add _)

theorem length_encode_le {bs : Bytes} {s : String} (h : decode bs = .ok s) :
    (encode s).length ≤ bs.length := by
  have hle := length_scan_le bs
  unfold decode at h
  split at h
  · next cs hscan =>
    cases h
    rw [hscan] at hle
    rw [encode, String.toList_ofList]
    exact hle
  · cases h

end Utf8

namespace Decimal

/-- A number below a power of ten has no more digits than the power has zeros. -/
theorem length_chars_le {n k : Nat} (hk : 0 < k) (h : n < 10 ^ k) : (chars n).length ≤ k := by
  induction k generalizing n with
  | zero => cases hk
  | succ k ih =>
    unfold chars
    split
    · exact Nat.succ_pos k
    · next hn =>
      have hpos : 0 < k := by
        rcases Nat.eq_zero_or_pos k with rfl | hpos
        · exact absurd h hn
        · exact hpos
      have hdiv : n / 10 < 10 ^ k := Nat.div_lt_of_lt_mul (by rwa [Nat.pow_succ'] at h)
      rw [List.length_append, List.length_singleton]
      exact Nat.succ_le_succ (ih hpos hdiv)

/-- Decimal digits are digits. -/
theorem isDigit_of_mem_chars {n : Nat} {c : Char} (h : c ∈ chars n) : c.isDigit = true := by
  have hdigit : ∀ d, d < 10 → (digit d).isDigit = true := by decide
  fun_induction chars n with
  | case1 n hn =>
    rw [List.mem_singleton.1 h]
    exact hdigit n hn
  | case2 n _ ih =>
    rcases List.mem_append.1 h with h | h
    · exact ih h
    · rw [List.mem_singleton.1 h]
      exact hdigit (n % 10) (Nat.mod_lt _ (by decide))

end Decimal

end IndexFeed
