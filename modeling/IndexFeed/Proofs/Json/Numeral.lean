import IndexFeed.Proofs.Json.Grammar
import IndexFeed.Json.Value

/-!
# Reading numerals

The reader of numbers takes nothing but well-formed numerals and gives the number that they stand
for, or finds it out of range, and it reads every numeral in range from which what follows is set apart.
-/

set_option autoImplicit false

namespace IndexFeed.Json

variable {c d : Cursor} {negative : Bool} {s : Nat} {e : Int} {n : Number} {r : Option Number}

/-! ## Digits -/

namespace Cursor

/-- The next octet, if there is one, is no digit. -/
def NoDigit (c : Cursor) : Prop := ∀ b r, c.rest = b :: r → Octet.isDigit b = false

/-- The next octet, if there is one, cannot go on with a numeral. -/
structure Apart (c : Cursor) : Prop where
  noDigit : c.NoDigit
  noPoint : ∀ b r, c.rest = b :: r → b ≠ Octet.point
  noExponent : c.atExponent = false

theorem digits_of_takes {p : Bytes} (hp : ∀ b ∈ p, Octet.isDigit b = true) (h : c.Takes p d)
    (hd : d.NoDigit) : c.digits = p := by
  have hrest : d.rest.takeWhile Octet.isDigit = [] := by
    cases hr : d.rest with
    | nil => rfl
    | cons b r => simp [hd b r hr]
  rw [digits, h.1, List.takeWhile_append_of_pos hp, hrest, List.append_nil]

theorem takes_digits (c : Cursor) : c.Takes c.digits (c.advance c.digits.length) :=
  Takes.takeWhile c Octet.isDigit

theorem isDigit_of_mem_digits {b : UInt8} (h : b ∈ c.digits) : Octet.isDigit b = true :=
  List.all_eq_true.1 List.all_takeWhile b h

theorem digits_ne_nil {b : UInt8} {r : Bytes} (h : c.rest = b :: r)
    (hb : Octet.isDigit b = true) : c.digits ≠ [] := by
  simp [digits, h, hb]

theorem head_digits {b : UInt8} {r : Bytes} (h : c.rest = b :: r)
    (hb : Octet.isDigit b = true) : c.digits.head? = some b := by
  simp [digits, h, hb]

theorem noDigit_of_cons {b : UInt8} {r : Bytes} (h : c.rest = b :: r)
    (hb : Octet.isDigit b = false) : c.NoDigit := by
  intro b' r' h'
  rw [h] at h'
  obtain ⟨rfl, -⟩ := List.cons.inj h'
  exact hb

theorem exists_of_atExponent (h : c.atExponent = true) :
    ∃ b r, c.rest = b :: r ∧ (b = Octet.letterE ∨ b = Octet.capitalE) := by
  unfold atExponent at h
  split at h
  · next b r hr => exact ⟨b, r, hr, by simpa using h⟩
  · cases h

end Cursor

theorem isDigit_letterE {b : UInt8} (h : b = Octet.letterE ∨ b = Octet.capitalE) :
    Octet.isDigit b = false := by
  rcases h with rfl | rfl <;> rfl

theorem Digits.head {p : Bytes} (h : Digits p) :
    ∃ b q, p = b :: q ∧ Octet.isDigit b = true := by
  obtain ⟨hne, hall⟩ := h
  obtain ⟨b, q, rfl⟩ := List.exists_cons_of_ne_nil hne
  exact ⟨b, q, rfl, hall b List.mem_cons_self⟩

/-! ## Ends of numerals -/

/-- Reading has come to the end of a numeral: to its number, or to the fault that it is out of
range. -/
inductive Settled : Outcome Number → Option Number → Cursor → Prop where
  | inRange {n : Number} {d : Cursor} : Settled (.ok (n, d)) (some n) d
  | outOfRange {d : Cursor} : Settled (.error (d.besideLook .numberOutOfRange)) none d

theorem settled_ok_iff {m : Number} {d' : Cursor} :
    Settled (.ok (m, d')) r d ↔ some m = r ∧ d' = d := by
  constructor
  · intro h
    cases h
    exact ⟨rfl, rfl⟩
  · rintro ⟨rfl, rfl⟩
    exact .inRange

theorem settled_some_iff {o : Outcome Number} : Settled o (some n) d ↔ o = .ok (n, d) := by
  constructor
  · intro h
    cases h
    rfl
  · rintro rfl
    exact .inRange

theorem Settled.looked {f : Fault} (h : Settled (.error f) r d) :
    f = d.besideLook .numberOutOfRange := by
  cases h
  rfl

theorem not_settled_behind {cause : Cause} : ¬ Settled (.error (c.behind cause)) r d := by
  intro h
  cases congrArg Fault.looked h.looked

theorem not_settled_ahead {cause : Cause} : ¬ Settled (.error (c.ahead cause)) r d := by
  intro h
  have hsite := congrArg Fault.site h.looked
  simp [Cursor.ahead, Cursor.besideLook] at hsite

theorem finishNumber_settled_iff :
    Settled (finishNumber negative s e c) r d ↔
      (magnitude? s e).map (Number.signed negative) = r ∧ c = d := by
  unfold finishNumber
  cases magnitude? s e with
  | some x => exact settled_ok_iff
  | none =>
    constructor
    · intro h
      cases h
      exact ⟨rfl, rfl⟩
    · rintro ⟨rfl, rfl⟩
      exact .outOfRange

theorem finishNumber_eq_ok_iff :
    finishNumber negative s e c = .ok (n, d) ↔
      (magnitude? s e).map (Number.signed negative) = some n ∧ c = d :=
  settled_some_iff.symm.trans finishNumber_settled_iff

/-! ## Exponents -/

/-- The sign of an exponent is read with or without its octet. -/
theorem exponentSign_spec (c : Cursor) :
    ∃ sign, c.Takes sign (exponentSign c).2 ∧
      (sign = [] ∨ sign = [Octet.plus] ∨ sign = [Octet.minus]) ∧
      (exponentSign c).1 = decide (sign = [Octet.minus]) := by
  unfold exponentSign
  split
  · next b r hr =>
    split
    · next hb =>
      subst hb
      exact ⟨[Octet.plus], Cursor.Takes.one hr, .inr (.inl rfl), rfl⟩
    · split
      · next hb =>
        subst hb
        exact ⟨[Octet.minus], Cursor.Takes.one hr, .inr (.inr rfl), rfl⟩
      · exact ⟨[], Cursor.Takes.refl c, .inl rfl, rfl⟩
  · exact ⟨[], Cursor.Takes.refl c, .inl rfl, rfl⟩

theorem exponentSign_of_takes {sign digits : Bytes}
    (hs : sign = [] ∨ sign = [Octet.plus] ∨ sign = [Octet.minus]) (hd : Digits digits)
    (h : c.Takes (sign ++ digits) d) :
    exponentSign c = (decide (sign = [Octet.minus]), c.advance sign.length) := by
  obtain ⟨b, q, rfl, hb⟩ := hd.head
  have hr := h.1
  rcases hs with rfl | rfl | rfl
  · have hplus : b ≠ Octet.plus := by rintro rfl; cases hb
    have hminus : b ≠ Octet.minus := by rintro rfl; cases hb
    simp [exponentSign, hr, hplus, hminus]
  · simp only [exponentSign, hr, List.cons_append, List.nil_append, if_true]
    rfl
  · simp only [exponentSign, hr, List.cons_append, List.nil_append]
    rfl

/-- The number that the sign and the digits of an exponent make does not depend on its letter. -/
theorem readExponent_sound (h : Settled (readExponent negative s e c) r d) :
    ∃ sign digits, c.Takes (sign ++ digits) d ∧
      (sign = [] ∨ sign = [Octet.plus] ∨ sign = [Octet.minus]) ∧ Digits digits ∧
      ∀ letter, Exponent.number? negative s e ⟨letter, sign, digits⟩ = r := by
  obtain ⟨sign, ht, hsign, hdown⟩ := exponentSign_spec c
  unfold readExponent at h
  generalize exponentSign c = signed at h ht hdown
  obtain ⟨down, c₁⟩ := signed
  obtain rfl : down = decide (sign = [Octet.minus]) := hdown
  dsimp only at h ht
  split at h
  · exact absurd h not_settled_behind
  · next b t hr =>
    split at h
    · exact absurd h not_settled_behind
    · next hb =>
      have hb : Octet.isDigit b = true := by simpa using hb
      have hds : Digits c₁.digits :=
        ⟨Cursor.digits_ne_nil hr hb, fun _ => Cursor.isDigit_of_mem_digits⟩
      refine ⟨sign, c₁.digits, ?_⟩
      split at h
      · next hused =>
        split at h
        · exact absurd h not_settled_behind
        · next hzero =>
          obtain ⟨hn, rfl⟩ := settled_ok_iff.1 h
          refine ⟨ht.trans c₁.takes_digits, hsign, hds, fun letter => ?_⟩
          simp only [Exponent.number?]
          rw [if_pos hused, if_neg (by simpa using hzero), hn]
      · next hused =>
        obtain ⟨hn, rfl⟩ := finishNumber_settled_iff.1 h
        refine ⟨ht.trans c₁.takes_digits, hsign, hds, fun letter => ?_⟩
        simp only [Exponent.number?]
        rw [if_neg hused, ← hn]
        simp only [decide_eq_true_eq]

theorem readExponent_complete {x : Exponent} (hx : x.WellFormed)
    (ht : c.Takes (x.sign ++ x.digits) d) (hd : d.NoDigit)
    (hn : x.number? negative s e = some n) : readExponent negative s e c = .ok (n, d) := by
  obtain ⟨c₁, ht₁, ht₂⟩ := ht.split
  have hsign := exponentSign_of_takes hx.sign hx.digits ht
  rw [← ht₁.eq_advance] at hsign
  obtain ⟨b, q, hq, hb⟩ := hx.digits.head
  have hr : c₁.rest = b :: (q ++ d.rest) := by rw [ht₂.1, hq, List.cons_append]
  have hdigits : c₁.digits = x.digits := Cursor.digits_of_takes hx.digits.2 ht₂ hd
  have hend : c₁.advance x.digits.length = d := ht₂.eq_advance.symm
  simp only [readExponent, hsign, hr, hb, hdigits, hend, Bool.not_true, Bool.false_eq_true,
    if_false]
  simp only [Exponent.number?] at hn
  split at hn
  · next hused =>
    rw [if_pos hused]
    split at hn
    · cases hn
    · next hzero =>
      rw [if_neg (by simpa using hzero)]
      rw [Option.some.inj hn]
  · next hused =>
    rw [if_neg hused, finishNumber_eq_ok_iff]
    simpa only [decide_eq_true_eq, and_true] using hn

/-- An exponent with its letter. -/
theorem exponent_sound (hc : c.atExponent = true)
    (h : Settled (readExponent negative s e (c.advance 1)) r d) :
    ∃ x : Exponent, c.Takes x.text d ∧ x.WellFormed ∧ x.number? negative s e = r := by
  obtain ⟨b, t, hr, hb⟩ := Cursor.exists_of_atExponent hc
  obtain ⟨sign, digits, ht, hsign, hdigits, hn⟩ := readExponent_sound h
  exact ⟨⟨b, sign, digits⟩, (Cursor.Takes.one hr).trans ht, ⟨hb, hsign, hdigits⟩, hn b⟩

theorem exponent_complete {x : Exponent} (hx : x.WellFormed) (ht : c.Takes x.text d)
    (hd : d.NoDigit) (hn : x.number? negative s e = some n) :
    c.atExponent = true ∧ readExponent negative s e (c.advance 1) = .ok (n, d) := by
  refine ⟨?_, readExponent_complete hx ht.advance_of_cons hd hn⟩
  unfold Cursor.atExponent
  rw [ht.rest_of_cons]
  simpa using hx.letter

/-! ## Behind the digits -/

/-- The end of a numeral with a point or an exponent: the exponent, if there is one. -/
theorem tail_sound
    (h : Settled (if c.atExponent then readExponent negative s e (c.advance 1)
      else finishNumber negative s e c) r d) :
    ∃ x : Option Exponent, c.Takes (x.elim [] Exponent.text) d ∧
      (∀ y, x = some y → y.WellFormed) ∧ Numeral.scaled? negative s e x = r := by
  split at h
  · next hc =>
    obtain ⟨x, ht, hx, hn⟩ := exponent_sound hc h
    refine ⟨some x, ht, ?_, hn⟩
    rintro y ⟨⟩
    exact hx
  · obtain ⟨hn, rfl⟩ := finishNumber_settled_iff.1 h
    refine ⟨none, Cursor.Takes.refl c, ?_, hn⟩
    rintro y ⟨⟩

theorem tail_complete {x : Option Exponent} (hx : ∀ y, x = some y → y.WellFormed)
    (ht : c.Takes (x.elim [] Exponent.text) d) (hd : d.Apart)
    (hn : Numeral.scaled? negative s e x = some n) :
    (if c.atExponent then readExponent negative s e (c.advance 1)
      else finishNumber negative s e c) = .ok (n, d) := by
  cases x with
  | none =>
    obtain rfl := Cursor.Takes.unique (Cursor.Takes.refl c) ht
    rw [if_neg (by rw [hd.noExponent]; exact Bool.false_ne_true)]
    exact finishNumber_eq_ok_iff.2 ⟨hn, rfl⟩
  | some x =>
    obtain ⟨hc, h⟩ := exponent_complete (hx x rfl) ht hd.noDigit hn
    rw [if_pos hc, h]

theorem readFraction_sound (h : Settled (readFraction negative s e c) r d) :
    ∃ f x, c.Takes (f ++ Option.elim x [] Exponent.text) d ∧ Digits f ∧
      (∀ y, x = some y → y.WellFormed) ∧
      Numeral.scaled? negative (absorb 0x10000000000000000 s f).1
        (e - ((absorb 0x10000000000000000 s f).2 : Int)) x = r := by
  unfold readFraction at h
  dsimp only at h
  split at h
  · exact absurd h not_settled_ahead
  · next hne =>
    obtain ⟨x, ht, hx, hn⟩ := tail_sound h
    have hds : Digits c.digits :=
      ⟨by simpa using hne, fun _ => Cursor.isDigit_of_mem_digits⟩
    exact ⟨c.digits, x, c.takes_digits.trans ht, hds, hx, hn⟩

/-- Neither the letter of an exponent nor what stands apart from a numeral is a digit. -/
theorem noDigit_of_tail {x : Option Exponent} (hx : ∀ y, x = some y → y.WellFormed)
    (ht : c.Takes (x.elim [] Exponent.text) d) (hd : d.Apart) : c.NoDigit := by
  cases x with
  | none =>
    obtain rfl := Cursor.Takes.unique (Cursor.Takes.refl c) ht
    exact hd.noDigit
  | some x => exact Cursor.noDigit_of_cons ht.rest_of_cons (isDigit_letterE (hx x rfl).letter)

theorem readFraction_complete {f : Bytes} {x : Option Exponent} (hf : Digits f)
    (hx : ∀ y, x = some y → y.WellFormed) (ht : c.Takes (f ++ x.elim [] Exponent.text) d)
    (hd : d.Apart)
    (hn : Numeral.scaled? negative (absorb 0x10000000000000000 s f).1
      (e - ((absorb 0x10000000000000000 s f).2 : Int)) x = some n) :
    readFraction negative s e c = .ok (n, d) := by
  obtain ⟨c₁, ht₁, ht₂⟩ := ht.split
  have hdigits := Cursor.digits_of_takes hf.2 ht₁ (noDigit_of_tail hx ht₂ hd)
  obtain rfl := ht₁.eq_advance
  unfold readFraction
  dsimp only
  rw [hdigits, if_neg (by simpa using hf.1)]
  exact tail_complete hx ht₂ hd hn

/-- Digits alone write an integer, unless the significand has lost some of them. -/
theorem bare_settled_iff {ds : Bytes} :
    Settled (if (absorb 0x10000000000000000 0 ds).2 < ds.length then
      finishNumber negative (absorb 0x10000000000000000 0 ds).1
        ((ds.length - (absorb 0x10000000000000000 0 ds).2 : Nat) : Int) c
      else .ok (.whole negative (absorb 0x10000000000000000 0 ds).1, c)) r d ↔
      Numeral.number? negative ⟨ds, none, none⟩ = r ∧ c = d := by
  have hnumber : Numeral.number? negative ⟨ds, none, none⟩ =
      if (absorb 0x10000000000000000 0 ds).2 < ds.length then
        (magnitude? (absorb 0x10000000000000000 0 ds).1
          ((ds.length - (absorb 0x10000000000000000 0 ds).2 : Nat) : Int)).map
            (Number.signed negative)
      else some (.whole negative (absorb 0x10000000000000000 0 ds).1) := rfl
  rw [hnumber]
  split
  · exact finishNumber_settled_iff
  · exact settled_ok_iff

theorem readScale_sound {ds : Bytes} (h : Settled (readScale negative ds c) r d) :
    ∃ f x, c.Takes (Numeral.scaleText f x) d ∧ (∀ g, f = some g → Digits g) ∧
      (∀ y, x = some y → y.WellFormed) ∧ Numeral.number? negative ⟨ds, f, x⟩ = r := by
  unfold readScale at h
  dsimp only at h
  split at h
  · next b t hr =>
    split at h
    · next hb =>
      subst hb
      obtain ⟨f, x, ht, hf, hx, hn⟩ := readFraction_sound h
      refine ⟨some f, x, (Cursor.Takes.one hr).trans ht, ?_, hx, hn⟩
      rintro g ⟨⟩
      exact hf
    · split at h
      · next hc =>
        obtain ⟨x, ht, hx, hn⟩ := exponent_sound hc h
        refine ⟨none, some x, ht, nofun, ?_, hn⟩
        rintro y ⟨⟩
        exact hx
      · obtain ⟨hn, rfl⟩ := bare_settled_iff.1 h
        exact ⟨none, none, Cursor.Takes.refl c, nofun, nofun, hn⟩
  · obtain ⟨hn, rfl⟩ := bare_settled_iff.1 h
    exact ⟨none, none, Cursor.Takes.refl c, nofun, nofun, hn⟩

theorem readScale_complete {x : Numeral} (hx : x.WellFormed)
    (ht : c.Takes (Numeral.scaleText x.fraction x.exponent) d) (hd : d.Apart)
    (hn : x.number? negative = some n) : readScale negative x.whole c = .ok (n, d) := by
  obtain ⟨whole, fraction, exponent⟩ := x
  unfold readScale
  dsimp only at ht ⊢
  cases fraction with
  | some f =>
    rw [ht.rest_of_cons]
    dsimp only
    rw [if_pos rfl]
    exact readFraction_complete (hx.fraction f rfl) hx.exponent ht.advance_of_cons hd hn
  | none =>
    cases exponent with
    | some y =>
      obtain ⟨hc, h⟩ := exponent_complete (hx.exponent y rfl) ht hd.noDigit hn
      have hpoint : y.letter ≠ Octet.point := by
        intro hb
        rcases (hx.exponent y rfl).letter with h' | h' <;> rw [hb] at h' <;> cases h'
      rw [ht.rest_of_cons]
      dsimp only
      rw [if_neg hpoint, if_pos hc, h]
    | none =>
      obtain rfl : c = d := Cursor.Takes.unique (Cursor.Takes.refl c) ht
      have hbare := settled_some_iff.1 (bare_settled_iff.2 ⟨hn, (rfl : c = c)⟩)
      split
      · next b r hr =>
        rw [if_neg (hd.noPoint b r hr), if_neg (by rw [hd.noExponent]; exact Bool.false_ne_true)]
        exact hbare
      · exact hbare

/-- What stands behind the digits in front of the point does not begin with a digit. -/
theorem noDigit_of_scale {x : Numeral} (hx : x.WellFormed)
    (ht : c.Takes (Numeral.scaleText x.fraction x.exponent) d) (hd : d.Apart) : c.NoDigit := by
  obtain ⟨whole, fraction, exponent⟩ := x
  cases fraction with
  | some f => exact Cursor.noDigit_of_cons ht.rest_of_cons rfl
  | none => exact noDigit_of_tail hx.exponent ht hd

/-! ## Numbers -/

theorem readNumber_sound (h : Settled (readNumber negative c) r d) :
    ∃ x : Numeral, c.Takes x.text d ∧ x.WellFormed ∧ x.number? negative = r := by
  unfold readNumber at h
  split at h
  · exact absurd h not_settled_behind
  · next b t hr =>
    split at h
    · exact absurd h not_settled_behind
    · next hb =>
      have hb : Octet.isDigit b = true := by simpa using hb
      split at h
      · next hzero =>
        split at h
        · exact absurd h not_settled_ahead
        · obtain ⟨f, x, ht, hf, hx, hn⟩ := readScale_sound h
          have hds : Digits [b] := ⟨List.cons_ne_nil b [], by simpa using hb⟩
          exact ⟨⟨[b], f, x⟩, (Cursor.Takes.one hr).trans ht,
            ⟨hds, fun _ => by rw [hzero], hf, hx⟩, hn⟩
      · next hzero =>
        obtain ⟨f, x, ht, hf, hx, hn⟩ := readScale_sound h
        have hds : Digits c.digits :=
          ⟨Cursor.digits_ne_nil hr hb, fun _ => Cursor.isDigit_of_mem_digits⟩
        have hlead : c.digits.head? = some Octet.zero → c.digits = [Octet.zero] := by
          intro hhead
          rw [Cursor.head_digits hr hb] at hhead
          exact absurd (Option.some.inj hhead) hzero
        exact ⟨⟨c.digits, f, x⟩, c.takes_digits.trans ht, ⟨hds, hlead, hf, hx⟩, hn⟩

theorem readNumber_complete {x : Numeral} (hx : x.WellFormed) (ht : c.Takes x.text d)
    (hd : d.Apart) (hn : x.number? negative = some n) : readNumber negative c = .ok (n, d) := by
  obtain ⟨c₁, ht₁, ht₂⟩ := ht.split
  have hnext := noDigit_of_scale hx ht₂ hd
  have hdigits := Cursor.digits_of_takes hx.whole.2 ht₁ hnext
  have hscale := readScale_complete hx ht₂ hd hn
  obtain ⟨b, q, hq, hb⟩ := hx.whole.head
  have hr : c.rest = b :: (q ++ c₁.rest) := by rw [ht₁.1, hq, List.cons_append]
  have hadvance := ht₁.eq_advance
  unfold readNumber
  rw [hr]
  dsimp only
  rw [hb, if_neg (by decide)]
  split
  · next hzero =>
    -- a zero in front stands alone, so no digit follows it
    have hwhole : x.whole = [Octet.zero] := hx.lead (by rw [hq, hzero]; rfl)
    obtain rfl : q = [] := by simpa [hzero] using hq.symm.trans hwhole
    have hhead : ((([] ++ c₁.rest).head?.map Octet.isDigit).getD false) = false := by
      cases hr₁ : c₁.rest with
      | nil => rfl
      | cons b' r' => simpa using hnext b' r' hr₁
    rw [hhead, if_neg (by decide), ← hscale, hadvance, hq]
    rfl
  · rw [hdigits, ← hadvance, hscale]

/-! ## Decoders -/

theorem digitNumber_sound (h : Decoder.digitNumber.run c = .ok (n, d)) :
    ∃ p, c.Takes p d ∧ NumberWritten n p := by
  obtain ⟨x, ht, hx, hn⟩ := readNumber_sound (settled_some_iff.2 h)
  exact ⟨x.text, ht, .plain hx hn⟩

/-- The octet in front is the minus sign that has been looked at. -/
theorem minusNumber_sound {r : Bytes} (hr : c.rest = Octet.minus :: r)
    (h : Decoder.minusNumber.run c = .ok (n, d)) : ∃ p, c.Takes p d ∧ NumberWritten n p := by
  simp only [Decoder.minusNumber, Decoder.afterHead, hr] at h
  obtain ⟨x, ht, hx, hn⟩ := readNumber_sound (settled_some_iff.2 h)
  exact ⟨Octet.minus :: x.text, Cursor.Takes.cons hr rfl ht, .negative hx hn⟩

theorem digitNumber_complete {x : Numeral} (hx : x.WellFormed) (hn : x.number? false = some n)
    (ht : c.Takes x.text d) (hd : d.Apart) : Decoder.digitNumber.run c = .ok (n, d) :=
  readNumber_complete hx ht hd hn

theorem minusNumber_complete {x : Numeral} (hx : x.WellFormed) (hn : x.number? true = some n)
    (ht : c.Takes (Octet.minus :: x.text) d) (hd : d.Apart) :
    Decoder.minusNumber.run c = .ok (n, d) := by
  simp only [Decoder.minusNumber, Decoder.afterHead, ht.rest_of_cons]
  exact readNumber_complete hx ht.tail_of_cons hd hn

end IndexFeed.Json
