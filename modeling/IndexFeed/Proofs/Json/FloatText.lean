import IndexFeed.Proofs.Json.Writing
import IndexFeed.Proofs.Number.Shortest

/-!
# The text of a float and what is read of it

Whichever way the digits of a binary64 number are laid out, its text is a numeral, and the reader
gathers from it the very digits that have been written and their power of ten.  What it makes of
them is `Binary64.reread?`, which rounds more than once and so need not be the number again.
-/

set_option autoImplicit false

namespace IndexFeed

open Json (Digits Exponent Numeral Number NumberWritten absorb amount magnitude?)
open Utf8 (encodeChars encodeChars_cons encodeChars_append)

namespace Binary64

/-- The significand and the power of ten that are gathered from the text of a number.  The digit
behind the point of a whole number is one of them. -/
def written (x : Binary64) : DecimalForm :=
  if x.isZero then ⟨0, -1⟩
  else
    let f := x.shortest
    if 0 ≤ f.exponent ∧ f.exponent + (Decimal.chars f.digits).length ≤ 16 then
      ⟨f.digits * Nat.pow 10 (f.exponent.toNat + 1), -1⟩
    else f

/-- The number that is read from the text of a number, unless it is out of range. -/
def reread? (x : Binary64) : Option Binary64 :=
  (magnitude? x.written.digits x.written.exponent).map fun y => if x.negative then y.neg else y

end Binary64

namespace Json

variable {n k : Nat} {negative : Bool} {s : Nat} {e : Int} {w f : Bytes}

/-! ## The numbers of numerals -/

/-- Digits on both sides of a point are absorbed one after the other. -/
theorem Numeral.number?_point (h : amount 0 (w ++ f) < 0x10000000000000000) (o : Option Exponent) :
    number? negative ⟨w, some f, o⟩ = scaled? negative (amount 0 (w ++ f)) (-(f.length : Int)) o := by
  rw [amount_append] at h ⊢
  have hw := absorb_of_amount_lt 0x10000000000000000 (Nat.lt_of_le_of_lt (le_amount _ f) h)
  have hf := absorb_of_amount_lt 0x10000000000000000 h
  simp only [number?, hw, hf, Nat.sub_self, Int.natCast_zero, Int.zero_sub]

theorem Numeral.number?_exponent (h : amount 0 w < 0x10000000000000000) (x : Exponent) :
    number? negative ⟨w, none, some x⟩ = x.number? negative (amount 0 w) 0 := by
  have hw := absorb_of_amount_lt 0x10000000000000000 h
  simp only [number?, hw, Nat.sub_self, Int.natCast_zero]

/-- The exponent of a number with its leading digit at a place. -/
def exponentOf (place : Int) : Exponent :=
  ⟨Octet.letterE, if place < 0 then [Octet.minus] else [Octet.plus],
    encodeChars (Decimal.chars place.natAbs)⟩

theorem wellFormed_exponentOf (place : Int) : (exponentOf place).WellFormed where
  letter := .inl rfl
  sign := by
    rw [exponentOf]
    split
    · exact .inr (.inr rfl)
    · exact .inr (.inl rfl)
  digits := (encodeChars_chars place.natAbs).1

theorem text_exponentOf (place : Int) :
    (exponentOf place).text = encodeChars
      (['e'] ++ ((if place < 0 then ['-'] else ['+']) ++ Decimal.chars place.natAbs)) := by
  rw [encodeChars_append, encodeChars_append, Exponent.text, exponentOf]
  split <;> rfl

theorem number?_exponentOf {place : Int} (h : place.natAbs < 0x80000000) :
    (exponentOf place).number? negative s e =
      (magnitude? s (e + place)).map (Number.signed negative) := by
  obtain ⟨-, hamount, -⟩ := encodeChars_chars place.natAbs
  have habsorb := absorb_of_amount_lt (s := 0) (p := encodeChars (Decimal.chars place.natAbs))
    0x80000000 (by rwa [hamount])
  rw [hamount] at habsorb
  simp only [Exponent.number?, exponentOf, habsorb, Nat.lt_irrefl, if_false]
  split
  · next hplace =>
    rw [if_pos rfl]
    congr 2
    omega
  · next hplace =>
    rw [if_neg (by decide)]
    congr 2
    omega

/-! ## Layouts -/

/-- The characters are a numeral, from which a significand and a power of ten are gathered. -/
def Stands (cs : List Char) (s : Nat) (e : Int) : Prop :=
  ∃ x : Numeral, x.WellFormed ∧ encodeChars cs = x.text ∧
    ∀ negative, x.number? negative = (magnitude? s e).map (Number.signed negative)

/-- A digit is one octet. -/
theorem octet_of_isDigit {c : Char} (h : c.isDigit = true) :
    c.utf8Size = 1 ∧ ∀ b ∈ String.utf8EncodeChar c, Octet.isDigit b = true := by
  have hall : ∀ n < 10, (Char.ofNat (0x30 + n)).utf8Size = 1 ∧
      ∀ b ∈ String.utf8EncodeChar (Char.ofNat (0x30 + n)), Octet.isDigit b = true := by
    decide +kernel
  obtain ⟨hleast, hmost⟩ : 0x30 ≤ c.toNat ∧ c.toNat ≤ 0x39 := by
    simpa [Char.isDigit, UInt32.le_iff_toNat_le] using h
  have hdigit := hall (c.toNat - 0x30) (by omega)
  rwa [Nat.add_sub_cancel' hleast, Char.ofNat_toNat] at hdigit

/-- Some of the digits of a number. -/
theorem digits_of_mem {cs : List Char} (hne : cs ≠ []) (h : ∀ c ∈ cs, c ∈ Decimal.chars n) :
    Digits (encodeChars cs) ∧ (encodeChars cs).length = cs.length := by
  have hascii : ∀ c ∈ cs, c.utf8Size = 1 ∧ ∀ b ∈ String.utf8EncodeChar c, Octet.isDigit b = true :=
    fun c hc => octet_of_isDigit (Decimal.isDigit_of_mem_chars (h c hc))
  have hlength := Utf8.length_encodeChars fun c hc => (hascii c hc).1
  refine ⟨⟨fun hnil => hne ?_, fun b hb => ?_⟩, hlength⟩
  · exact List.eq_nil_of_length_eq_zero (hlength.symm.trans (congrArg List.length hnil))
  · obtain ⟨c, hc, hb⟩ := List.mem_flatMap.1 hb
    exact (hascii c hc).2 b hb

/-- The digits of a number with a point among them, and perhaps an exponent. -/
theorem wellFormed_point {l r : List Char} (hn : Decimal.chars n = l ++ r) (hl : l ≠ []) (hr : r ≠ [])
    {o : Option Exponent} (ho : ∀ x, o = some x → x.WellFormed) :
    Numeral.WellFormed ⟨encodeChars l, some (encodeChars r), o⟩ where
  whole := (digits_of_mem hl fun c hc => hn ▸ List.mem_append_left r hc).1
  lead := by
    intro hzero
    have hhead : (encodeChars (Decimal.chars n)).head? = some Octet.zero := by
      rw [hn, encodeChars_append, List.head?_append, hzero]
      rfl
    have hone : (l ++ r).length = 1 := by
      rw [← hn, (encodeChars_chars n).2.2 hhead]
      decide +kernel
    have hl := List.length_pos_iff.2 hl
    have hr := List.length_pos_iff.2 hr
    rw [List.length_append] at hone
    omega
  fraction := by
    rintro f ⟨⟩
    exact (digits_of_mem hr fun c hc => hn ▸ List.mem_append_right l hc).1
  exponent := ho

theorem amount_point {l r : List Char} (hn : Decimal.chars n = l ++ r) :
    amount 0 (encodeChars l ++ encodeChars r) = n := by
  rw [← encodeChars_append, ← hn, (encodeChars_chars n).2.1]

theorem stands_inside {l r : List Char} (hn : Decimal.chars n = l ++ r) (hl : l ≠ []) (hr : r ≠ [])
    (hlt : n < 0x10000000000000000) : Stands (l ++ ['.'] ++ r) n (-(r.length : Int)) := by
  obtain ⟨-, hlength⟩ := digits_of_mem hr fun c hc => hn ▸ List.mem_append_right l hc
  have hamount := amount_point hn
  refine ⟨⟨encodeChars l, some (encodeChars r), none⟩, wellFormed_point hn hl hr nofun, ?_, ?_⟩
  · rw [List.append_assoc, encodeChars_append, encodeChars_append]
    exact congrArg (encodeChars l ++ ·) (List.append_nil _).symm
  · intro negative
    rw [Numeral.number?_point (hamount ▸ hlt), hamount, hlength]
    rfl

/-- One digit in front of the point, all others behind it, and an exponent. -/
theorem stands_scientific (hlt : n < 0x10000000000000000) (place : Int)
    (hplace : place.natAbs < 0x80000000) :
    Stands (Binary64.pointAfterFirst (Decimal.chars n) ++ ['e'] ++
        (if place < 0 then ['-'] else ['+']) ++ Decimal.chars place.natAbs) n
      (place + 1 - (Decimal.chars n).length) := by
  rw [List.append_assoc, List.append_assoc, Stands, encodeChars_append, ← text_exponentOf]
  have hexponent : ∀ x, some (exponentOf place) = some x → x.WellFormed := by
    rintro x ⟨⟩
    exact wellFormed_exponentOf place
  match hn : Decimal.chars n with
  | [] => exact absurd (congrArg encodeChars hn) (encodeChars_chars n).1.1
  | [d] =>
    obtain ⟨hdigits, hamount, -⟩ := encodeChars_chars n
    rw [hn] at hdigits hamount
    refine ⟨⟨encodeChars [d], none, some (exponentOf place)⟩, ⟨hdigits, ?_, nofun, hexponent⟩, rfl, ?_⟩
    · have hlead := lead_chars n
      rwa [hn] at hlead
    · intro negative
      rw [Numeral.number?_exponent (hamount ▸ hlt), hamount, number?_exponentOf hplace]
      congr 2
      simp only [List.length_singleton]
      omega
  | d :: c :: r =>
    have happend : Decimal.chars n = [d] ++ c :: r := hn
    have hamount := amount_point happend
    obtain ⟨-, hlength⟩ := digits_of_mem (List.cons_ne_nil c r) fun x hx =>
      happend ▸ List.mem_append_right [d] hx
    refine ⟨⟨encodeChars [d], some (encodeChars (c :: r)), some (exponentOf place)⟩,
      wellFormed_point happend (List.cons_ne_nil d []) (List.cons_ne_nil c r) hexponent, ?_, ?_⟩
    · have hpoint : Binary64.pointAfterFirst (d :: c :: r) = [d] ++ (['.'] ++ c :: r) := rfl
      rw [hpoint, encodeChars_append, encodeChars_append, List.append_assoc, List.append_assoc]
      rfl
    · intro negative
      rw [Numeral.number?_point (hamount ▸ hlt), hamount, hlength, Numeral.scaled?,
        number?_exponentOf hplace]
      congr 2
      simp only [List.length_cons]
      omega

/-- Zeros behind digits. -/
theorem amount_zeros (s k : Nat) :
    amount s (encodeChars (List.replicate k '0')) = s * 10 ^ k := by
  induction k generalizing s with
  | zero => exact (Nat.mul_one s).symm
  | succ k ih =>
    have hzero : amount s (encodeChars ['0']) = s * 10 := rfl
    rw [List.replicate_succ, ← List.singleton_append, encodeChars_append, amount_append, hzero, ih,
      Nat.pow_succ', Nat.mul_assoc]

theorem digits_zeros (k : Nat) : ∀ b ∈ encodeChars (List.replicate k '0'), Octet.isDigit b = true := by
  intro b hb
  obtain ⟨c, hc, hb⟩ := List.mem_flatMap.1 hb
  rw [List.eq_of_mem_replicate hc] at hb
  obtain rfl := List.mem_singleton.1 (show b ∈ [0x30] from hb)
  rfl

theorem length_zeros (k : Nat) : (encodeChars (List.replicate k '0')).length = k := by
  rw [Utf8.length_encodeChars fun c hc => by rw [List.eq_of_mem_replicate hc]; rfl,
    List.length_replicate]

/-- A whole number, with zeros behind its digits and one more behind the point. -/
theorem stands_whole (h : 0 < n ∨ k = 0) (hlt : n * 10 ^ (k + 1) < 0x10000000000000000) :
    Stands (Decimal.chars n ++ List.replicate k '0' ++ ['.', '0']) (n * 10 ^ (k + 1)) (-1) := by
  obtain ⟨⟨hne, hall⟩, hamount, hhead⟩ := encodeChars_chars n
  have hfraction : Digits (encodeChars ['0']) := ⟨by decide +kernel, by decide +kernel⟩
  have hmany : amount 0 (encodeChars (Decimal.chars n ++ List.replicate k '0') ++
      encodeChars ['0']) = n * 10 ^ (k + 1) := by
    rw [encodeChars_append, amount_append, amount_append, hamount, amount_zeros]
    exact (Nat.mul_assoc ..).trans rfl
  refine ⟨⟨encodeChars (Decimal.chars n ++ List.replicate k '0'), some (encodeChars ['0']), none⟩,
    ⟨?_, ?_, ?_, nofun⟩, ?_, ?_⟩
  · rw [encodeChars_append]
    refine ⟨List.append_ne_nil_of_left_ne_nil hne _, ?_⟩
    rw [List.forall_mem_append]
    exact ⟨hall, digits_zeros k⟩
  · intro hzero
    obtain ⟨b, q, hq⟩ := List.exists_cons_of_ne_nil hne
    rw [encodeChars_append, hq, List.cons_append, List.head?_cons] at hzero
    have hn := hhead (by rw [hq, List.head?_cons, hzero])
    have hk : k = 0 := h.resolve_left (by omega)
    rw [hn, hk]
    decide +kernel
  · rintro f ⟨⟩
    exact hfraction
  · rw [encodeChars_append]
    rfl
  · intro negative
    rw [Numeral.number?_point (hmany ▸ hlt), hmany]
    rfl

/-- A number below one, with zeros between the point and its digits. -/
theorem stands_below (k : Nat) (hlt : n < 0x10000000000000000) :
    Stands (['0', '.'] ++ List.replicate k '0' ++ Decimal.chars n) n
      (-((k + (Decimal.chars n).length : Nat) : Int)) := by
  obtain ⟨⟨hne, hall⟩, hamount, -⟩ := encodeChars_chars n
  have hfraction : Digits (encodeChars (List.replicate k '0' ++ Decimal.chars n)) := by
    rw [encodeChars_append]
    refine ⟨List.append_ne_nil_of_right_ne_nil _ hne, ?_⟩
    rw [List.forall_mem_append]
    exact ⟨digits_zeros k, hall⟩
  have hmany : amount 0 (encodeChars ['0'] ++ encodeChars (List.replicate k '0' ++ Decimal.chars n))
      = n := by
    rw [encodeChars_append, amount_append, amount_append, amount_zeros,
      show amount 0 (encodeChars ['0']) = 0 from rfl, Nat.zero_mul, hamount]
  have hlength : (encodeChars (List.replicate k '0' ++ Decimal.chars n)).length =
      k + (Decimal.chars n).length := by
    have hsome : Decimal.chars n ≠ [] := fun h => hne (by rw [h]; rfl)
    have hdigits := digits_of_mem hsome fun _ => id
    rw [encodeChars_append, List.length_append, length_zeros, hdigits.2]
  have hzero : Digits (encodeChars ['0']) ∧ encodeChars ['0'] = [Octet.zero] :=
    ⟨⟨by decide +kernel, by decide +kernel⟩, rfl⟩
  refine ⟨⟨encodeChars ['0'], some (encodeChars (List.replicate k '0' ++ Decimal.chars n)), none⟩,
    ⟨hzero.1, fun _ => hzero.2, ?_, nofun⟩, ?_, ?_⟩
  · rintro f ⟨⟩
    exact hfraction
  · rw [show ['0', '.'] ++ List.replicate k '0' ++ Decimal.chars n =
      ['0'] ++ (['.'] ++ (List.replicate k '0' ++ Decimal.chars n)) from rfl, encodeChars_append,
      encodeChars_append]
    exact congrArg (encodeChars ['0'] ++ ·) (List.append_nil _).symm
  · intro negative
    rw [← hmany] at hlt
    rw [Numeral.number?_point hlt, hmany, hlength]
    rfl

/-- A numeral with its sign in front. -/
theorem Stands.numberWritten {cs : List Char} {y : Binary64} (h : Stands cs s e) (negative : Bool)
    (hy : (magnitude? s e).map (fun y => if negative then y.neg else y) = some y) :
    NumberWritten (.float y) (encodeChars ((if negative then ['-'] else []) ++ cs)) := by
  obtain ⟨x, hx, htext, hnumber⟩ := h
  obtain ⟨z, hz, rfl⟩ := Option.map_eq_some_iff.1 hy
  have hvalue : x.number? negative = some (.signed negative z) := by rw [hnumber, hz, Option.map_some]
  rw [encodeChars_append, htext]
  cases negative with
  | false => exact .plain hx hvalue
  | true => exact .negative hx hvalue

end Json

/-! ## Numbers -/

namespace Binary64

variable {x y : Binary64} {f : DecimalForm}

theorem dropZeros_pos (fuel : Nat) (h : 0 < f.digits) : 0 < (dropZeros fuel f).digits := by
  induction fuel generalizing f with
  | zero => exact h
  | succ fuel ih =>
    rw [dropZeros]
    split
    · next hzero => exact ih (Nat.div_pos (by omega) (by decide))
    · exact h

/-- Without digits there is no power of ten either. -/
theorem shortest_pos (x : Binary64) : 0 < x.shortest.digits ∨ x.shortest.exponent = 0 := by
  rw [shortest]
  cases hfound : (List.range 17).findSome? fun (k : Nat) => x.onGrid (x.leadingPlace - (k : Int)) with
  | none => exact .inr rfl
  | some f =>
    obtain ⟨k, -, hgrid⟩ := List.exists_of_findSome?_eq_some hfound
    exact .inl (dropZeros_pos 20 (onGrid_spec hgrid).2.1)

theorem lt_pow_length_chars (n : Nat) : n < 10 ^ (Decimal.chars n).length := by
  fun_induction Decimal.chars n with
  | case1 n hn => exact hn
  | case2 n hn ih =>
    rw [List.length_append, List.length_singleton, Nat.pow_succ]
    omega

/-- The digits of a positive number, laid out by the place of the first one. -/
theorem stands_layout {n : Nat} {exponent place : Int} (hn : n < 10 ^ 18) (hpos : 0 < n ∨ exponent = 0)
    (hplace : place = exponent + (Decimal.chars n).length - 1) (hleast : -407 ≤ exponent)
    (hmost : exponent ≤ 329) :
    Json.Stands
      (if place < -5 ∨ 15 < place then
        pointAfterFirst (Decimal.chars n) ++ ['e'] ++ (if place < 0 then ['-'] else ['+'])
          ++ Decimal.chars place.natAbs
      else if 0 ≤ exponent then
        Decimal.chars n ++ List.replicate exponent.toNat '0' ++ ['.', '0']
      else if 0 ≤ place then
        (Decimal.chars n).take (place.toNat + 1) ++ ['.'] ++ (Decimal.chars n).drop (place.toNat + 1)
      else ['0', '.'] ++ List.replicate (place.natAbs - 1) '0' ++ Decimal.chars n)
      (if 0 ≤ exponent ∧ exponent + (Decimal.chars n).length ≤ 16 then
        ⟨n * Nat.pow 10 (exponent.toNat + 1), -1⟩ else (⟨n, exponent⟩ : DecimalForm)).digits
      (if 0 ≤ exponent ∧ exponent + (Decimal.chars n).length ≤ 16 then
        ⟨n * Nat.pow 10 (exponent.toNat + 1), -1⟩ else (⟨n, exponent⟩ : DecimalForm)).exponent := by
  have hlimit : n < 0x10000000000000000 := Nat.lt_trans hn (by decide)
  have hlength : (Decimal.chars n).length ≤ 18 := Decimal.length_chars_le (by decide) hn
  have hone : 0 < (Decimal.chars n).length :=
    List.length_pos_iff.2 fun h => (Json.encodeChars_chars n).1.1 (by rw [h]; rfl)
  by_cases hwhole : 0 ≤ exponent ∧ exponent + (Decimal.chars n).length ≤ 16
  · rw [if_pos hwhole, if_neg (by omega), if_pos hwhole.1]
    refine Json.stands_whole (hpos.imp_right fun h => by omega) ?_
    calc n * 10 ^ (exponent.toNat + 1)
        < 10 ^ (Decimal.chars n).length * 10 ^ (exponent.toNat + 1) :=
          Nat.mul_lt_mul_of_pos_right (lt_pow_length_chars n) (Nat.pow_pos (by decide))
      _ = 10 ^ ((Decimal.chars n).length + (exponent.toNat + 1)) := (Nat.pow_add ..).symm
      _ ≤ 10 ^ 17 := Nat.pow_le_pow_right (by decide) (by omega)
      _ < 0x10000000000000000 := by decide
  · rw [if_neg hwhole]
    split
    · have hstands := Json.stands_scientific hlimit place (by omega)
      have hexponent : place + 1 - ((Decimal.chars n).length : Int) = exponent := by omega
      rwa [hexponent] at hstands
    · rw [if_neg (by omega)]
      split
      · have hdrop : ((Decimal.chars n).drop (place.toNat + 1)).length = exponent.natAbs := by
          rw [List.length_drop]
          omega
        have htake : ((Decimal.chars n).take (place.toNat + 1)).length = place.toNat + 1 := by
          rw [List.length_take]
          omega
        have hstands := Json.stands_inside (List.take_append_drop (place.toNat + 1) _).symm
          (List.ne_nil_of_length_pos (by omega)) (List.ne_nil_of_length_pos (by omega)) hlimit
        have hexponent : -(exponent.natAbs : Int) = exponent := by omega
        rwa [hdrop, hexponent] at hstands
      · have hstands := Json.stands_below (place.natAbs - 1) hlimit
        have hexponent : -((place.natAbs - 1 + (Decimal.chars n).length : Nat) : Int) = exponent := by
          omega
        rwa [hexponent] at hstands

/-- **The digits that have been written are gathered again**, in whichever layout they are. -/
theorem stands_chars (x : Binary64) :
    ∃ cs, x.chars = (if x.negative then ['-'] else []) ++ cs ∧
      Json.Stands cs x.written.digits x.written.exponent := by
  obtain ⟨hdigits, hleast, hmost⟩ := x.short_shortest
  have hpos := x.shortest_pos
  by_cases hzero : x.isZero = true
  · rw [chars, charsIn, written, if_pos hzero, if_pos hzero]
    have hstands := Json.stands_whole (n := 0) (k := 0) (.inr rfl) (by decide)
    rw [Decimal.chars] at hstands
    exact ⟨_, List.append_assoc .., hstands⟩
  · rw [chars, charsIn, written, if_neg hzero, if_neg hzero]
    generalize x.shortest = f at *
    exact ⟨_, rfl, stands_layout hdigits hpos rfl hleast hmost⟩

/-- **A number is written so that its reading is what is read.** -/
theorem numberWritten_chars (h : x.reread? = some y) :
    NumberWritten (.float y) (encodeChars x.chars) := by
  obtain ⟨cs, hcs, hstands⟩ := x.stands_chars
  rw [hcs]
  exact hstands.numberWritten x.negative h

end Binary64

end IndexFeed
