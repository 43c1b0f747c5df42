import IndexFeed.Proofs.Text.Width

/-!
# UTF-8 there and back

The octets of a character are read as that character, whatever octets come behind, so a text that
has been written as octets is read as itself.
-/

set_option autoImplicit false

namespace IndexFeed.Utf8

variable {k l n : Nat} {x : Char} {a b c d : UInt8} {r : Bytes}

/-! ## One character -/

theorem scan_one (ha : a < 0x80) (hx : scalar? 0 a.toNat = some x) :
    scan (a :: r) = (x :: (scan r).1, (scan r).2) := by
  rw [scan.eq_def (a :: r)]
  dsimp only
  rw [if_pos ha, hx]

theorem scan_two (ha : 0xc0 ≤ a ∧ a < 0xe0) (hb : isContinuation b = true)
    (hx : scalar? 0x80 (a.toNat % 32 * 64 + payload b) = some x) :
    scan (a :: b :: r) = (x :: (scan r).1, (scan r).2) := by
  have hlead : ¬a < 0x80 := UInt8.not_lt.2 (UInt8.le_trans (by decide) ha.1)
  rw [scan.eq_def (a :: b :: r)]
  simp only [hlead, hb, ha, hx, decide_true, Bool.and_self, Bool.not_true, Bool.false_eq_true,
    if_false, if_true]

theorem scan_three (ha : 0xe0 ≤ a ∧ a < 0xf0) (hb : isContinuation b = true)
    (hc : isContinuation c = true)
    (hx : scalar? 0x800 ((a.toNat % 16 * 64 + payload b) * 64 + payload c) = some x) :
    scan (a :: b :: c :: r) = (x :: (scan r).1, (scan r).2) := by
  have hlead : ¬a < 0x80 := UInt8.not_lt.2 (UInt8.le_trans (by decide) ha.1)
  have htwo : ¬a < 0xe0 := UInt8.not_lt.2 ha.1
  rw [scan.eq_def (a :: b :: c :: r)]
  simp only [hlead, htwo, hb, hc, ha, hx, decide_true, decide_false, Bool.and_false, Bool.and_self,
    Bool.not_true, Bool.false_eq_true, if_false, if_true]

theorem scan_four (ha : 0xf0 ≤ a ∧ a < 0xf8) (hb : isContinuation b = true)
    (hc : isContinuation c = true) (hd : isContinuation d = true)
    (hx : scalar? 0x10000
      (((a.toNat % 8 * 64 + payload b) * 64 + payload c) * 64 + payload d) = some x) :
    scan (a :: b :: c :: d :: r) = (x :: (scan r).1, (scan r).2) := by
  have hlead : ¬a < 0x80 := UInt8.not_lt.2 (UInt8.le_trans (by decide) ha.1)
  have htwo : ¬a < 0xe0 := UInt8.not_lt.2 (UInt8.le_trans (by decide) ha.1)
  have hthree : ¬a < 0xf0 := UInt8.not_lt.2 ha.1
  rw [scan.eq_def (a :: b :: c :: d :: r)]
  simp only [hlead, htwo, hthree, hb, hc, hd, ha, hx, decide_true, decide_false, Bool.and_false,
    Bool.and_self, Bool.not_true, Bool.false_eq_true, if_false, if_true]

/-! ## The octets of a character -/

theorem toNat_ofNat (h : n < 256) : (UInt8.ofNat n).toNat = n := UInt8.toNat_ofNat_of_lt' h

/-- The first octet lies in the range that tells how many there are. -/
theorem ofNat_mem (hk : k ≤ n) (hn : n < l) (hl : l < 256) :
    UInt8.ofNat k ≤ UInt8.ofNat n ∧ UInt8.ofNat n < UInt8.ofNat l := by
  rw [UInt8.le_iff_toNat_le, UInt8.lt_iff_toNat_lt, toNat_ofNat hl,
    toNat_ofNat (Nat.lt_trans hn hl), toNat_ofNat (Nat.lt_of_le_of_lt hk (Nat.lt_trans hn hl))]
  exact ⟨hk, hn⟩

theorem isContinuation_ofNat (n : Nat) : isContinuation (UInt8.ofNat (n % 64 + 128)) = true := by
  have hall : ∀ n < 64, isContinuation (UInt8.ofNat (n + 128)) = true := by decide +kernel
  exact hall (n % 64) (Nat.mod_lt n (by decide))

theorem payload_ofNat (n : Nat) : payload (UInt8.ofNat (n % 64 + 128)) = n % 64 := by
  rw [payload, toNat_ofNat (by omega)]
  omega

theorem scalar?_toNat {least : Nat} (x : Char) (hn : n = x.toNat) (h : least ≤ x.toNat) :
    scalar? least n = some x := by
  have hvalid : n.isValidChar := hn ▸ x.valid
  rw [scalar?, dif_pos hvalid, if_pos (hn ▸ h)]
  subst hn
  exact congrArg some (Char.ext (UInt32.toNat_inj.1 rfl))

/-- What is read of the octets of a character is that character. -/
theorem scan_utf8EncodeChar (x : Char) (r : Bytes) :
    scan (String.utf8EncodeChar x ++ r) = (x :: (scan r).1, (scan r).2) := by
  have hmost : x.toNat < 0x110000 := by
    have hvalid : x.toNat.isValidChar := x.valid
    rw [Nat.isValidChar] at hvalid
    omega
  unfold String.utf8EncodeChar
  dsimp only
  rw [show x.val.toNat = x.toNat from rfl]
  split
  · next hone =>
    have ha := ofNat_mem (k := 0) (Nat.zero_le _) (Nat.lt_succ_of_le hone) (by decide)
    exact scan_one ha.2 (scalar?_toNat x (toNat_ofNat (by omega)) (Nat.zero_le _))
  · split
    · next hone htwo =>
      refine scan_two (ofNat_mem (k := 0xc0) (l := 0xe0) ?_ ?_ (by decide)) (isContinuation_ofNat _)
        (scalar?_toNat x ?_ (by omega))
      · omega
      · omega
      · rw [payload_ofNat, toNat_ofNat (by omega)]
        omega
    · split
      · next hone htwo hthree =>
        refine scan_three (ofNat_mem (k := 0xe0) (l := 0xf0) ?_ ?_ (by decide))
          (isContinuation_ofNat _) (isContinuation_ofNat _) (scalar?_toNat x ?_ (by omega))
        · omega
        · omega
        · rw [payload_ofNat, payload_ofNat, toNat_ofNat (by omega)]
          omega
      · next hone htwo hthree =>
        refine scan_four (ofNat_mem (k := 0xf0) (l := 0xf8) ?_ ?_ (by decide))
          (isContinuation_ofNat _) (isContinuation_ofNat _) (isContinuation_ofNat _)
          (scalar?_toNat x ?_ (by omega))
        · omega
        · omega
        · rw [payload_ofNat, payload_ofNat, payload_ofNat, toNat_ofNat (by omega)]
          omega

/-- Among the octets of a character, one below `0x80` stands for the character alone. -/
theorem toNat_of_mem_utf8EncodeChar (h : a ∈ String.utf8EncodeChar x) :
    a.toNat = x.toNat ∨ 0x80 ≤ a.toNat := by
  unfold String.utf8EncodeChar at h
  dsimp only at h
  rw [show x.val.toNat = x.toNat from rfl] at h
  split at h
  · next hone =>
    rw [List.mem_singleton.1 h]
    exact .inl (toNat_ofNat (by omega))
  · have hlarge : ∀ n, 0x80 ≤ n → n < 256 → 0x80 ≤ (UInt8.ofNat n).toNat := by
      intro n hn hlt
      rw [toNat_ofNat hlt]
      exact hn
    refine .inr ?_
    split at h
    · simp only [List.mem_cons, List.not_mem_nil, or_false] at h
      rcases h with rfl | rfl <;> exact hlarge _ (by omega) (by omega)
    · split at h
      · simp only [List.mem_cons, List.not_mem_nil, or_false] at h
        rcases h with rfl | rfl | rfl <;> exact hlarge _ (by omega) (by omega)
      · simp only [List.mem_cons, List.not_mem_nil, or_false] at h
        rcases h with rfl | rfl | rfl | rfl <;> exact hlarge _ (by omega) (by omega)

/-! ## Texts -/

theorem scan_encodeChars (cs : List Char) : scan (encodeChars cs) = (cs, []) := by
  induction cs with
  | nil => rfl
  | cons x cs ih => rw [encodeChars_cons, scan_utf8EncodeChar, ih]

/-- **A text is read back from its octets.** -/
theorem decode_encodeChars (cs : List Char) : decode (encodeChars cs) = .ok (String.ofList cs) := by
  rw [decode, scan_encodeChars]

end IndexFeed.Utf8
