import IndexFeed.Proofs.Json.Numeral
import IndexFeed.Proofs.Json.Quotation

/-!
# The readers take nothing but JSON

Whatever `Decoder.value n` takes is, behind blanks, the text of the value that it gives, with at
most `n` brackets and braces open at once.
-/

set_option autoImplicit false

namespace IndexFeed.Json

open Cursor (Blanks)

variable {c d : Cursor} {n : Nat} {j : Json} {ms : Object} {r : Bytes}

/-! ## Between items and members -/

/-- What can follow an item in an array: nothing but blanks, or a comma and more items. -/
def ItemsTail (n : Nat) (js : List Json) (p : Bytes) : Prop :=
  (js = [] ∧ Blanks p) ∨
    ∃ b q, Blanks b ∧ p = b ++ Octet.comma :: q ∧ Written n (.items js) q

/-- What can follow a member in an object: nothing but blanks, or a comma and more members. -/
def MembersTail (n : Nat) (ms : Object) (p : Bytes) : Prop :=
  (ms = [] ∧ Blanks p) ∨
    ∃ b q, Blanks b ∧ p = b ++ Octet.comma :: q ∧ Written n (.members ms) q

theorem ItemsTail.cons {js : List Json} {a p t : Bytes} (ha : Blanks a)
    (hj : Written n (.value j) p) (h : ItemsTail n js t) :
    Written n (.items (j :: js)) (a ++ (p ++ t)) := by
  rcases h with ⟨rfl, hb⟩ | ⟨b, q, hb, rfl, hq⟩
  · exact .lastItem ha hj hb
  · exact .item ha hj hb hq

theorem MembersTail.cons {key : String} {a k b e p t : Bytes} (ha : Blanks a)
    (hk : StringWritten key k) (hb : Blanks b) (he : Blanks e) (hj : Written n (.value j) p)
    (h : MembersTail n ms t) :
    Written n (.members ((key, j) :: ms))
      (a ++ (k ++ (b ++ Octet.colon :: (e ++ (p ++ t))))) := by
  rcases h with ⟨rfl, hc⟩ | ⟨c, q, hc, rfl, hq⟩
  · exact .lastMember ha hk hb he hj hc
  · exact .member ha hk hb he hj hc hq

/-- Blanks, a comma, and blanks again. -/
theorem Cursor.takes_pastComma (h : c.skipBlanks.rest = Octet.comma :: r) :
    ∃ a b, Blanks a ∧ Blanks b ∧
      c.Takes (a ++ Octet.comma :: b) (c.skipBlanks.advance 1).skipBlanks := by
  obtain ⟨a, ha, hta⟩ := c.exists_blanks
  obtain ⟨b, hb, htb⟩ := (c.skipBlanks.advance 1).exists_blanks
  exact ⟨a, b, ha, hb, hta.trans ((Cursor.Takes.one h).trans htb)⟩

theorem nextItem_false_sound {first : Bool} (h : nextItem first c = .ok (false, d)) :
    d = c.skipBlanks ∧ ∃ r, d.rest = Octet.closeBracket :: r := by
  unfold nextItem at h
  dsimp only at h
  split at h
  · cases h
  · next b r hr =>
    split at h
    · next hb =>
      cases h
      exact ⟨rfl, r, hb ▸ hr⟩
    · split at h
      · cases h
      · split at h
        · split at h
          · cases h
          · split at h <;> cases h
        · cases h

theorem nextItem_first_sound (h : nextItem true c = .ok (true, d)) : d = c.skipBlanks := by
  unfold nextItem at h
  dsimp only at h
  split at h
  · cases h
  · split at h
    · cases h
    · rw [if_pos rfl] at h
      cases h
      rfl

theorem nextItem_later_sound (h : nextItem false c = .ok (true, d)) :
    ∃ a b, Blanks a ∧ Blanks b ∧ c.Takes (a ++ Octet.comma :: b) d ∧ d.Solid := by
  unfold nextItem at h
  dsimp only at h
  split at h
  · cases h
  · next hr =>
    split at h
    · cases h
    · rw [if_neg Bool.false_ne_true] at h
      split at h
      · next hb =>
        split at h
        · cases h
        · split at h
          · cases h
          · cases h
            obtain ⟨a, b, ha, hb, ht⟩ := Cursor.takes_pastComma (hb ▸ hr)
            exact ⟨a, b, ha, hb, ht, Cursor.solid_skipBlanks _⟩
      · cases h

theorem nextKey_false_sound {first : Bool} (h : nextKey first c = .ok (false, d)) :
    d = c.skipBlanks ∧ ∃ r, d.rest = Octet.closeBrace :: r := by
  unfold nextKey at h
  dsimp only at h
  split at h
  · cases h
  · next b r hr =>
    split at h
    · next hb =>
      cases h
      exact ⟨rfl, r, hb ▸ hr⟩
    · split at h
      · split at h <;> cases h
      · split at h
        · split at h
          · cases h
          · split at h
            · cases h
            · split at h <;> cases h
        · cases h

theorem nextKey_first_sound (h : nextKey true c = .ok (true, d)) :
    d = c.skipBlanks ∧ ∃ r, d.rest = Octet.quote :: r := by
  unfold nextKey at h
  dsimp only at h
  split at h
  · cases h
  · next b r hr =>
    split at h
    · cases h
    · rw [if_pos rfl] at h
      split at h
      · next hb =>
        cases h
        exact ⟨rfl, r, hb ▸ hr⟩
      · cases h

theorem nextKey_later_sound (h : nextKey false c = .ok (true, d)) :
    ∃ a b, Blanks a ∧ Blanks b ∧ c.Takes (a ++ Octet.comma :: b) d ∧
      ∃ r, d.rest = Octet.quote :: r := by
  unfold nextKey at h
  dsimp only at h
  split at h
  · cases h
  · next hr =>
    split at h
    · cases h
    · rw [if_neg Bool.false_ne_true] at h
      split at h
      · next hb =>
        split at h
        · cases h
        · next x r hx =>
          split at h
          · next hquote =>
            cases h
            obtain ⟨a, b, ha, hb, ht⟩ := Cursor.takes_pastComma (hb ▸ hr)
            exact ⟨a, b, ha, hb, ht, r, hquote ▸ hx⟩
          · split at h <;> cases h
      · cases h

theorem closeArray_sound (h : closeArray c = .ok d) :
    c.skipBlanks.Takes [Octet.closeBracket] d := by
  unfold closeArray at h
  dsimp only at h
  split at h
  · cases h
  · next hr =>
    split at h
    · next hb =>
      cases h
      exact Cursor.Takes.one (hb ▸ hr)
    · split at h
      · split at h <;> cases h
      · cases h

theorem closeObject_sound (h : closeObject c = .ok d) :
    c.skipBlanks.Takes [Octet.closeBrace] d := by
  unfold closeObject at h
  dsimp only at h
  split at h
  · cases h
  · next hr =>
    split at h
    · next hb =>
      cases h
      exact Cursor.Takes.one (hb ▸ hr)
    · split at h <;> cases h

/-! ## Combinators -/

namespace Decoder

variable {α β : Type} {a : α}

theorem map_eq_ok_iff {f : α → β} {D : Decoder α} {b : β} :
    (D.map f).run c = .ok (b, d) ↔ ∃ a, D.run c = .ok (a, d) ∧ f a = b := by
  simp only [map]
  constructor
  · intro h
    split at h
    · next a c' ha =>
      cases h
      exact ⟨a, ha, rfl⟩
    · cases h
  · rintro ⟨a, ha, rfl⟩
    rw [ha]

/-- `D` takes nothing but the texts of values, behind blanks. -/
def Sound (n : Nat) (D : Decoder Json) : Prop :=
  ∀ {c d : Cursor} {j : Json}, D.run c = .ok (j, d) →
    ∃ p, c.skipBlanks.Takes p d ∧ Written n (.value j) p

theorem afterColon_sound {D : Decoder α} (h : D.afterColon.run c = .ok (a, d)) :
    ∃ b e, Blanks b ∧ c.Takes (b ++ [Octet.colon]) e ∧ D.run e = .ok (a, d) := by
  obtain ⟨b, hb, ht⟩ := c.exists_blanks
  simp only [afterColon, onHead] at h
  split at h
  · cases h
  · next x r hx =>
    split at h
    · next hcolon =>
      subst hcolon
      simp only [afterOctet, afterHead, hx] at h
      exact ⟨b, _, hb, ht.trans (Cursor.Takes.tail hx), h⟩
    · cases h

/-- What an array of values does at each item. -/
def gatherItem (D : Decoder Json) : Nat → List Json → Option (Decoder (List Json)) :=
  fun _ items => some (D.map (· :: items))

/-- What an object does at the value of each member. -/
def gatherMember (D : Decoder Json) : String → Object → Decoder Object :=
  fun key members => (D.map fun j => (key, j) :: members).afterColon

end Decoder

open Decoder (gatherItem gatherMember)

/-! ## Containers, as they are taken -/

theorem itemsTail_sound {D : Decoder Json} (hD : D.Sound n) {i k : Nat} {s t : List Json}
    (hi : i ≠ 0) (h : readItems (gatherItem D) i s c = .ok ((k, t), d)) :
    ∃ js p, t = js.reverse ++ s ∧ c.Takes p d ∧ ItemsTail n js p ∧
      ∃ r, d.rest = Octet.closeBracket :: r := by
  fun_induction readItems (gatherItem D) i s c with
  | case1 i s c hnone => cases hnone
  | case2 => cases h
  | case3 i s c D' hD' d' hn =>
    obtain ⟨⟨⟩, rfl⟩ := Prod.mk.inj (Except.ok.inj h)
    obtain ⟨rfl, hclose⟩ := nextItem_false_sound hn
    obtain ⟨b, hb, ht⟩ := c.exists_blanks
    exact ⟨[], b, rfl, ht, .inl ⟨rfl, hb⟩, hclose⟩
  | case4 => cases h
  | case5 i s c D' hD' d' hn t' e hj ih =>
    obtain rfl := Option.some.inj hD'
    rw [beq_eq_false_iff_ne.2 hi] at hn
    obtain ⟨b, a, hb, ha, ht, hsolid⟩ := nextItem_later_sound hn
    obtain ⟨j, hrun, rfl⟩ := Decoder.map_eq_ok_iff.1 hj
    obtain ⟨p, hp, hw⟩ := hD hrun
    rw [Cursor.skipBlanks_of_solid hsolid] at hp
    obtain ⟨js, q, rfl, hq, htail, hclose⟩ := ih (Nat.succ_ne_zero i) h
    refine ⟨j :: js, b ++ Octet.comma :: (a ++ (p ++ q)), by simp, ?_,
      .inr ⟨b, _, hb, rfl, htail.cons ha hw⟩, hclose⟩
    simpa using ht.trans (hp.trans hq)

/-- The text between the brackets of an array. -/
theorem readItems_sound {D : Decoder Json} (hD : D.Sound n) {k : Nat} {t : List Json}
    (h : readItems (gatherItem D) 0 [] c = .ok ((k, t), d)) :
    ∃ p, c.Takes p d ∧ ((t = [] ∧ Blanks p) ∨ Written n (.items t.reverse) p) ∧
      ∃ r, d.rest = Octet.closeBracket :: r := by
  obtain ⟨a, ha, hta⟩ := c.exists_blanks
  unfold readItems at h
  dsimp only [gatherItem] at h
  split at h
  · cases h
  · next d' hn =>
    obtain ⟨⟨⟩, rfl⟩ := Prod.mk.inj (Except.ok.inj h)
    obtain ⟨rfl, hclose⟩ := nextItem_false_sound hn
    exact ⟨a, hta, .inl ⟨rfl, ha⟩, hclose⟩
  · next d' hn =>
    obtain rfl := nextItem_first_sound hn
    split at h
    · cases h
    · next t' e hj =>
      obtain ⟨j, hrun, rfl⟩ := Decoder.map_eq_ok_iff.1 hj
      obtain ⟨p, hp, hw⟩ := hD hrun
      rw [Cursor.skipBlanks_skipBlanks] at hp
      obtain ⟨js, q, rfl, hq, htail, hclose⟩ := itemsTail_sound hD Nat.one_ne_zero h
      refine ⟨a ++ (p ++ q), hta.trans (hp.trans hq), .inr ?_, hclose⟩
      simpa using htail.cons ha hw

theorem membersTail_sound {D : Decoder Json} (hD : D.Sound n) {s t : Object}
    (h : readMembers (gatherMember D) false s c = .ok (t, d)) :
    ∃ ms p, t = ms.reverse ++ s ∧ c.Takes p d ∧ MembersTail n ms p ∧
      ∃ r, d.rest = Octet.closeBrace :: r := by
  generalize hfirst : false = first at h
  fun_induction readMembers (gatherMember D) first s c with
  | case1 => cases h
  | case2 first s c d' hn =>
    cases h
    obtain ⟨rfl, hclose⟩ := nextKey_false_sound hn
    obtain ⟨b, hb, ht⟩ := c.exists_blanks
    exact ⟨[], b, rfl, ht, .inl ⟨rfl, hb⟩, hclose⟩
  | case3 => cases h
  | case4 => cases h
  | case5 first s c d' hn key e hkey t' f hm ih =>
    subst hfirst
    obtain ⟨b, a, hb, ha, ht, r, hquote⟩ := nextKey_later_sound hn
    obtain ⟨k, htk, hk⟩ := quoted_sound hquote hkey
    obtain ⟨b', e', hb', hte, hm⟩ := Decoder.afterColon_sound hm
    obtain ⟨j, hrun, rfl⟩ := Decoder.map_eq_ok_iff.1 hm
    obtain ⟨p, hp, hw⟩ := hD hrun
    obtain ⟨a', ha', hta'⟩ := e'.exists_blanks
    obtain ⟨ms, q, rfl, hq, htail, hclose⟩ := ih rfl h
    refine ⟨(key, j) :: ms,
      b ++ Octet.comma :: (a ++ (k ++ (b' ++ Octet.colon :: (a' ++ (p ++ q))))), by simp, ?_,
      .inr ⟨b, _, hb, rfl, htail.cons ha hk hb' ha' hw⟩, hclose⟩
    simpa using ht.trans (htk.trans (hte.trans (hta'.trans (hp.trans hq))))

/-- The text between the braces of an object. -/
theorem readMembers_sound {D : Decoder Json} (hD : D.Sound n) {t : Object}
    (h : readMembers (gatherMember D) true [] c = .ok (t, d)) :
    ∃ p, c.Takes p d ∧ ((t = [] ∧ Blanks p) ∨ Written n (.members t.reverse) p) ∧
      ∃ r, d.rest = Octet.closeBrace :: r := by
  obtain ⟨a, ha, hta⟩ := c.exists_blanks
  unfold readMembers at h
  split at h
  · cases h
  · next d' hn =>
    cases h
    obtain ⟨rfl, hclose⟩ := nextKey_false_sound hn
    exact ⟨a, hta, .inl ⟨rfl, ha⟩, hclose⟩
  · next d' hn =>
    obtain ⟨rfl, r, hquote⟩ := nextKey_first_sound hn
    split at h
    · cases h
    · next key e hkey =>
      split at h
      · cases h
      · next t' f hm =>
        obtain ⟨k, htk, hk⟩ := quoted_sound hquote hkey
        obtain ⟨b', e', hb', hte, hm⟩ := Decoder.afterColon_sound hm
        obtain ⟨j, hrun, rfl⟩ := Decoder.map_eq_ok_iff.1 hm
        obtain ⟨p, hp, hw⟩ := hD hrun
        obtain ⟨a', ha', hta'⟩ := e'.exists_blanks
        obtain ⟨ms, q, rfl, hq, htail, hclose⟩ := membersTail_sound hD h
        refine ⟨a ++ (k ++ (b' ++ Octet.colon :: (a' ++ (p ++ q)))), ?_, .inr ?_, hclose⟩
        · simpa using hta.trans (htk.trans (hte.trans (hta'.trans (hp.trans hq))))
        · simpa using htail.cons ha hk hb' ha' hw

/-- An array, from its bracket on. -/
theorem arrayAround_sound {D : Decoder Json} (hD : D.Sound n)
    (hr : c.rest = Octet.openBracket :: r) (h : (Decoder.arrayAround D).run c = .ok (j, d)) :
    ∃ p, c.Takes p d ∧ Written (n + 1) (.value j) p := by
  obtain ⟨⟨k, t⟩, hrun, rfl⟩ := Decoder.map_eq_ok_iff.1 h
  simp only [Decoder.arrayOf, Decoder.afterHead, hr, readArray] at hrun
  split at hrun
  · cases hrun
  · next res e hitems =>
    split at hrun
    · cases hrun
    · next f hclose =>
      cases hrun
      obtain ⟨p, hp, htext, r', hbracket⟩ := readItems_sound hD hitems
      have hend := closeArray_sound hclose
      rw [Cursor.skipBlanks_of_head hbracket rfl] at hend
      refine ⟨_, Cursor.Takes.cons hr rfl (hp.trans hend), ?_⟩
      rcases htext with ⟨rfl, hb⟩ | hw
      · exact .emptyArray hb
      · exact .array hw

/-- An object, from its brace on. -/
theorem membersAround_sound {D : Decoder Json} (hD : D.Sound n)
    (hr : c.rest = Octet.openBrace :: r) (h : (Decoder.membersAround D).run c = .ok (ms, d)) :
    ∃ p, c.Takes p d ∧ Written (n + 1) (.value (.object ms)) p := by
  obtain ⟨t, hrun, rfl⟩ := Decoder.map_eq_ok_iff.1 h
  simp only [Decoder.objectOf, Decoder.afterHead, hr, readObject] at hrun
  split at hrun
  · cases hrun
  · next res e hmembers =>
    split at hrun
    · cases hrun
    · next f hclose =>
      cases hrun
      obtain ⟨p, hp, htext, r', hbrace⟩ := readMembers_sound hD hmembers
      have hend := closeObject_sound hclose
      rw [Cursor.skipBlanks_of_head hbrace rfl] at hend
      refine ⟨_, Cursor.Takes.cons hr rfl (hp.trans hend), ?_⟩
      rcases htext with ⟨rfl, hb⟩ | hw
      · exact .emptyObject hb
      · exact .object hw

/-! ## Values, as they are taken -/

/-- A value without brackets, or a bracket or a brace for the decoders given. -/
theorem valueWith_sound {array object : Decoder Json}
    (h : (Decoder.valueWith array object).run c = .ok (j, d)) :
    (∃ p, c.skipBlanks.Takes p d ∧ Written 0 (.value j) p) ∨
      (∃ r, c.skipBlanks.rest = Octet.openBracket :: r ∧
        array.run c.skipBlanks = .ok (j, d)) ∨
      ∃ r, c.skipBlanks.rest = Octet.openBrace :: r ∧ object.run c.skipBlanks = .ok (j, d) := by
  simp only [Decoder.valueWith, Decoder.onHead] at h
  split at h
  · cases h
  · next b r hr =>
    split at h
    · next hb =>
      subst hb
      obtain ⟨rfl, ht⟩ := literal_sound hr h
      exact .inl ⟨_, ht, .null⟩
    split at h
    · next hb =>
      subst hb
      obtain ⟨rfl, ht⟩ := literal_sound hr h
      exact .inl ⟨_, ht, .truth⟩
    split at h
    · next hb =>
      subst hb
      obtain ⟨rfl, ht⟩ := literal_sound hr h
      exact .inl ⟨_, ht, .falsity⟩
    split at h
    · next hb =>
      obtain ⟨x, hrun, rfl⟩ := Decoder.map_eq_ok_iff.1 h
      obtain ⟨p, ht, hx⟩ := minusNumber_sound (hb ▸ hr) hrun
      exact .inl ⟨p, ht, .number hx⟩
    split at h
    · obtain ⟨x, hrun, rfl⟩ := Decoder.map_eq_ok_iff.1 h
      obtain ⟨p, ht, hx⟩ := digitNumber_sound hrun
      exact .inl ⟨p, ht, .number hx⟩
    split at h
    · next hb =>
      obtain ⟨x, hrun, rfl⟩ := Decoder.map_eq_ok_iff.1 h
      obtain ⟨p, ht, hx⟩ := quoted_sound (hb ▸ hr) hrun
      exact .inl ⟨p, ht, .string hx⟩
    split at h
    · next hb => exact .inr (.inl ⟨r, hb ▸ hr, h⟩)
    split at h
    · next hb => exact .inr (.inr ⟨r, hb ▸ hr, h⟩)
    · cases h

/-- Every value read is written by the octets taken, with no more brackets open than allowed. -/
theorem value_sound (n : Nat) : (Decoder.value n).Sound n := by
  induction n with
  | zero =>
    intro c d j h
    rcases valueWith_sound h with hatom | ⟨r, hr, hdeep⟩ | ⟨r, hr, hdeep⟩
    · exact hatom
    · cases hdeep
    · cases hdeep
  | succ n ih =>
    intro c d j h
    rcases valueWith_sound h with ⟨p, ht, hw⟩ | ⟨r, hr, harray⟩ | ⟨r, hr, hobject⟩
    · exact ⟨p, ht, hw.mono (Nat.zero_le _)⟩
    · exact arrayAround_sound ih hr harray
    · obtain ⟨ms, hrun, rfl⟩ := Decoder.map_eq_ok_iff.1 hobject
      exact membersAround_sound ih hr hrun

end IndexFeed.Json
