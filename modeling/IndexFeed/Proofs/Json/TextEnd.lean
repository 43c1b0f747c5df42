import IndexFeed.Proofs.Json.Numeral

/-!
# Faults and the end of a text

A reader of words, strings, numbers and separators that comes to the end of the text finds that the
text ends too early.  There is one exception: a numeral that goes up to the end may be out of range,
though with more digits in its exponent it would not be.  All other faults are raised in front of the
end.  `Raised` has one constructor for each of these ways to raise a fault, and there is one lemma for
each reader.
-/

set_option autoImplicit false

namespace IndexFeed.Json

variable {α : Type} {c d : Cursor} {f : Fault} {cause : Cause} {b : UInt8} {r : Bytes}

/-! ## Faults -/

/-- The text ends in a numeral that is out of range. -/
def EndsOutOfRange (text : Bytes) : Prop :=
  ∃ (t : Bytes) (x : Numeral) (negative : Bool), text = t ++ x.text ∧ x.WellFormed ∧
    x.number? negative = none

theorem Cursor.exists_append_of_le (h : c ≤ d) : ∃ t, c.rest = t ++ d.rest := by
  obtain ⟨n, -, rfl⟩ := h
  exact ⟨c.rest.take n, (List.take_append_drop n c.rest).symm⟩

theorem EndsOutOfRange.of_le (h : EndsOutOfRange d.rest) (hle : c ≤ d) :
    EndsOutOfRange c.rest := by
  obtain ⟨t, ht⟩ := Cursor.exists_append_of_le hle
  obtain ⟨u, x, negative, hu, hx, hn⟩ := h
  exact ⟨t ++ u, x, negative, by rw [ht, hu, List.append_assoc], hx, hn⟩

/-- What a reader that starts at `c` can raise. -/
inductive Raised (c : Cursor) : Fault → Prop where
  /-- the octet ahead is at fault -/
  | head {d : Cursor} {cause : Cause} : c ≤ d → d.rest ≠ [] → cause.category = .malformed →
      Raised c (d.ahead cause)
  /-- the text ends where an octet was looked for -/
  | atEnd {d : Cursor} {cause : Cause} : c ≤ d → d.rest = [] → cause.category = .early →
      Raised c (d.ahead cause)
  /-- an octet that has been taken is at fault -/
  | behind {d : Cursor} {cause : Cause} (back : Nat) : c ≤ d → cause.category = .malformed →
      Raised c ⟨cause, some ⟨d, .behind back⟩, [], d, false⟩
  /-- the text ends where an octet was to be taken -/
  | behindEnd {d : Cursor} {cause : Cause} : c ≤ d → d.rest = [] → cause.category = .early →
      Raised c (d.behind cause)
  /-- a numeral is out of range, which is found when the octet behind it is looked at -/
  | outOfRange {d : Cursor} : c ≤ d → (d.rest = [] → EndsOutOfRange c.rest) →
      Raised c (d.besideLook .numberOutOfRange)

namespace Raised

theorem of_le (h : Raised d f) (hle : c ≤ d) : Raised c f := by
  cases h with
  | head hd hne hcause => exact .head (Cursor.le_trans hle hd) hne hcause
  | atEnd hd hnil hcause => exact .atEnd (Cursor.le_trans hle hd) hnil hcause
  | behind back hd hcause => exact .behind back (Cursor.le_trans hle hd) hcause
  | behindEnd hd hnil hcause => exact .behindEnd (Cursor.le_trans hle hd) hnil hcause
  | outOfRange hd hend => exact .outOfRange (Cursor.le_trans hle hd) fun hr => (hend hr).of_le hle

theorem at_head (hle : c ≤ d) (hr : d.rest = b :: r) (h : cause.category = .malformed) :
    Raised c (d.ahead cause) := .head hle (by simp [hr]) h

theorem at_last (hle : c ≤ d) (h : cause.category = .malformed) : Raised c (d.behind cause) :=
  .behind 0 hle h

end Raised

/-! ## Words and strings -/

theorem takeWord_raised {word : Bytes} (h : takeWord word c = .error f) : Raised c f := by
  induction word generalizing c with
  | nil => cases h
  | cons w word ih =>
    rw [takeWord] at h
    split at h
    · next hr =>
      cases h
      exact .behindEnd c.le_refl hr rfl
    · next b r hr =>
      have hc := Cursor.le_of_lt (Cursor.lt_tail hr)
      split at h
      · exact (ih h).of_le hc
      · cases h
        exact .at_last hc rfl

theorem readQuad_raised (h : readQuad c = .error f) : Raised c f := by
  unfold readQuad at h
  split at h
  · next x y z w r hr =>
    split at h
    · cases h
    · cases h
      exact .at_last ⟨4, by simp [hr], by simp [Cursor.advance, hr]⟩ rfl
  · cases h
    exact .behindEnd ⟨c.rest.length, Nat.le_refl _, by simp [Cursor.advance]⟩ rfl rfl

theorem takeInPair_raised {w : UInt8} (h : takeInPair w c = .error f) : Raised c f := by
  unfold takeInPair at h
  split at h
  · next hr =>
    cases h
    exact .behindEnd c.le_refl hr rfl
  · next hr =>
    split at h
    · cases h
    · cases h
      exact .at_last (Cursor.le_of_lt (Cursor.lt_tail hr)) rfl

theorem readTrailing_raised {m : Nat} (h : readTrailing m c = .error f) : Raised c f := by
  simp only [readTrailing, bind, Except.bind] at h
  split at h
  · next e =>
    cases h
    exact takeInPair_raised e
  · next e₁ =>
    have h₁ := takeInPair_le e₁
    split at h
    · next e =>
      cases h
      exact (takeInPair_raised e).of_le h₁
    · next e₂ =>
      have h₂ := Cursor.le_trans h₁ (takeInPair_le e₂)
      split at h
      · next e =>
        cases h
        exact (readQuad_raised e).of_le h₂
      · next e₃ =>
        split at h
        · cases h
        · cases h
          exact .at_last (Cursor.le_trans h₂ (readQuad_le e₃)) rfl

theorem readNumbered_raised (h : readNumbered c = .error f) : Raised c f := by
  simp only [readNumbered, bind, Except.bind] at h
  split at h
  · next e =>
    cases h
    exact readQuad_raised e
  · next e =>
    have hc := readQuad_le e
    split at h
    · cases h
      exact .at_last hc rfl
    · split at h
      · exact (readTrailing_raised h).of_le hc
      · cases h

theorem readEscape_raised (h : readEscape c = .error f) : Raised c f := by
  unfold readEscape at h
  split at h
  · next hr =>
    cases h
    exact .behindEnd c.le_refl hr rfl
  · next hr =>
    have hc := Cursor.le_of_lt (Cursor.lt_tail hr)
    split at h
    · cases h
    · split at h
      · exact (readNumbered_raised h).of_le hc
      · cases h
        exact .at_last hc rfl

theorem readPiece_raised (h : readPiece c = .error f) : Raised c f := by
  unfold readPiece at h
  split at h
  · next hr =>
    cases h
    exact .behindEnd c.le_refl hr rfl
  · next hr =>
    have hc := Cursor.le_of_lt (Cursor.lt_tail hr)
    split at h
    · cases h
    · split at h
      · split at h
        · cases h
        · next e =>
          cases h
          exact (readEscape_raised e).of_le hc
      · split at h
        · cases h
          exact .at_last hc rfl
        · cases h

theorem readOctets_raised (h : readOctets c = .error f) : Raised c f := by
  fun_induction readOctets c with
  | case1 c e hp =>
    cases h
    exact readPiece_raised hp
  | case2 => cases h
  | case3 c bs d hp e hm ih =>
    cases h
    exact (ih hm).of_le (Cursor.le_of_lt (readPiece_lt hp))
  | case4 => cases h

theorem readString_raised (h : readString c = .error f) : Raised c f := by
  unfold readString at h
  split at h
  · next e =>
    cases h
    exact readOctets_raised e
  · next bs d e =>
    split at h
    · cases h
    · next left hleft =>
      cases h
      exact .behind left (readOctets_le e) rfl

/-! ## Numbers -/

/-- The numeral that a reader of numbers is in is out of range, or a fault has been raised. -/
def RaisedInNumeral (c : Cursor) (f : Fault) : Prop :=
  (∃ d : Cursor, f = d.besideLook .numberOutOfRange) ∨ Raised c f

theorem RaisedInNumeral.of_le (h : RaisedInNumeral d f) (hle : c ≤ d) : RaisedInNumeral c f :=
  h.imp_right (·.of_le hle)

section Numbers

variable {negative : Bool} {s : Nat} {e : Int}

theorem finishNumber_raised (h : finishNumber negative s e c = .error f) : RaisedInNumeral d f := by
  unfold finishNumber at h
  split at h
  · cases h
  · cases h
    exact .inl ⟨c, rfl⟩

theorem readExponent_raised (h : readExponent negative s e c = .error f) : RaisedInNumeral c f := by
  have hs := exponentSign_le c
  unfold readExponent at h
  generalize exponentSign c = signed at h hs
  obtain ⟨down, c₁⟩ := signed
  dsimp only at h hs
  split at h
  · next hr =>
    cases h
    exact .inr (.behindEnd hs hr rfl)
  · next b r hr =>
    split at h
    · cases h
      exact .inr (.at_last (Cursor.le_trans hs (Cursor.le_of_lt (Cursor.lt_advance_one hr))) rfl)
    · split at h
      · next hused =>
        split at h
        · cases h
          have hdigits : c₁.digits.length ≤ c₁.rest.length :=
            (List.takeWhile_sublist Octet.isDigit).length_le
          exact .inr (.at_last (Cursor.le_trans hs (Cursor.le_advance (by omega))) rfl)
        · cases h
      · exact finishNumber_raised h

theorem readFraction_raised (h : readFraction negative s e c = .error f) : RaisedInNumeral c f := by
  unfold readFraction at h
  dsimp only at h
  split at h
  · cases h
    cases hr : c.rest with
    | nil => exact .inr (.atEnd c.le_refl hr rfl)
    | cons b r =>
      exact .inr (.at_head c.le_refl hr rfl)
  · split at h
    · next he =>
      exact (readExponent_raised h).of_le (Cursor.le_trans c.le_advance_digits
        (Cursor.le_of_lt (Cursor.lt_advance_of_atExponent he)))
    · exact finishNumber_raised h

theorem readScale_raised {ds : Bytes} (h : readScale negative ds c = .error f) :
    RaisedInNumeral c f := by
  unfold readScale at h
  dsimp only at h
  split at h
  · next hr =>
    have hc := Cursor.le_of_lt (Cursor.lt_advance_one hr)
    split at h
    · exact (readFraction_raised h).of_le hc
    · split at h
      · exact (readExponent_raised h).of_le hc
      · split at h
        · exact finishNumber_raised h
        · cases h
  · split at h
    · exact finishNumber_raised h
    · cases h

theorem readNumber_raisedInNumeral (h : readNumber negative c = .error f) :
    RaisedInNumeral c f := by
  unfold readNumber at h
  split at h
  · next hr =>
    cases h
    exact .inr (.behindEnd c.le_refl hr rfl)
  · next b r hr =>
    have hc := Cursor.lt_advance_one hr
    split at h
    · cases h
      exact .inr (.at_last (Cursor.le_of_lt hc) rfl)
    · split at h
      · split at h
        · next hdigit =>
          cases h
          obtain ⟨x, t, rfl⟩ : ∃ x t, r = x :: t := by
            cases r with
            | nil => cases hdigit
            | cons x t => exact ⟨x, t, rfl⟩
          exact .inr (.at_head (Cursor.le_of_lt hc) (by rw [Cursor.advance, hr]; rfl) rfl)
        · exact (readScale_raised h).of_le (Cursor.le_of_lt hc)
      · exact (readScale_raised h).of_le c.le_advance_digits

/-- If the text ends where a number is found out of range, it ends in a numeral that is. -/
theorem readNumber_raised (h : readNumber negative c = .error f) : Raised c f := by
  rcases readNumber_raisedInNumeral h with ⟨d, rfl⟩ | hraised
  · obtain ⟨x, ht, hx, hn⟩ := readNumber_sound (h ▸ Settled.outOfRange (d := d))
    refine .outOfRange ⟨x.text.length, ?_, ht.eq_advance⟩ fun hr => ⟨[], x, negative, ?_, hx, hn⟩
    · rw [ht.1, List.length_append]
      exact Nat.le_add_right _ _
    · rw [ht.1, hr, List.append_nil, List.nil_append]
  · exact hraised

end Numbers

/-! ## Between items and members -/

theorem nextItem_raised {first : Bool} (h : nextItem first c = .error f) : Raised c f := by
  have hc := c.le_skipBlanks
  unfold nextItem at h
  dsimp only at h
  split at h
  · next hr =>
    cases h
    exact .atEnd hc hr rfl
  · next hr =>
    have hpast := Cursor.le_of_lt (Cursor.lt_pastSeparator hr)
    split at h
    · cases h
    · split at h
      · cases h
      · split at h
        · split at h
          · next hr' =>
            cases h
            exact .atEnd hpast hr' rfl
          · next hr' =>
            split at h
            · cases h
              exact .at_head hpast hr' rfl
            · cases h
        · cases h
          exact .at_head hc hr rfl

theorem nextKey_raised {first : Bool} (h : nextKey first c = .error f) : Raised c f := by
  have hc := c.le_skipBlanks
  unfold nextKey at h
  dsimp only at h
  split at h
  · next hr =>
    cases h
    exact .atEnd hc hr rfl
  · next hr =>
    have hpast := Cursor.le_of_lt (Cursor.lt_pastSeparator hr)
    split at h
    · cases h
    · split at h
      · split at h
        · cases h
        · cases h
          exact .at_head hc hr rfl
      · split at h
        · split at h
          · next hr' =>
            cases h
            exact .atEnd hpast hr' rfl
          · next hr' =>
            split at h
            · cases h
            · split at h
              · cases h
                exact .at_head hpast hr' rfl
              · cases h
                exact .at_head hpast hr' rfl
        · cases h
          exact .at_head hc hr rfl

/-- Where a list should close, the octet ahead is at fault, or its absence. -/
theorem closeArray_ahead (h : closeArray c = .error f) :
    ∃ (d : Cursor) (cause : Cause), cause.category ≠ .misshapen ∧ f = d.ahead cause := by
  unfold closeArray at h
  dsimp only at h
  split at h
  · cases h
    exact ⟨_, _, by decide, rfl⟩
  · split at h
    · cases h
    · split at h
      · split at h
        · cases h
          exact ⟨_, _, by decide, rfl⟩
        · cases h
          exact ⟨_, _, by decide, rfl⟩
      · cases h
        exact ⟨_, _, by decide, rfl⟩

theorem closeObject_ahead (h : closeObject c = .error f) :
    ∃ (d : Cursor) (cause : Cause), cause.category ≠ .misshapen ∧ f = d.ahead cause := by
  unfold closeObject at h
  dsimp only at h
  split at h
  · cases h
    exact ⟨_, _, by decide, rfl⟩
  · split at h
    · cases h
    · split at h
      · cases h
        exact ⟨_, _, by decide, rfl⟩
      · cases h
        exact ⟨_, _, by decide, rfl⟩

namespace Decoder

theorem quoted_raised (h : quoted.run c = .error f) : Raised c f := by
  simp only [quoted, afterHead] at h
  split at h
  · next hr =>
    cases h
    exact .atEnd c.le_refl hr rfl
  · next hr => exact (readString_raised h).of_le (Cursor.le_of_lt (Cursor.lt_tail hr))

theorem minusNumber_raised (h : minusNumber.run c = .error f) : Raised c f := by
  simp only [minusNumber, afterHead] at h
  split at h
  · next hr =>
    cases h
    exact .atEnd c.le_refl hr rfl
  · next hr => exact (readNumber_raised h).of_le (Cursor.le_of_lt (Cursor.lt_tail hr))

theorem literal_raised {word : Bytes} {a : α} (h : (literal word a).run c = .error f) :
    Raised c f := by
  simp only [literal, afterHead] at h
  split at h
  · next hr =>
    cases h
    exact .atEnd c.le_refl hr rfl
  · next hr =>
    split at h
    · cases h
    · next e =>
      cases h
      exact (takeWord_raised e).of_le (Cursor.le_of_lt (Cursor.lt_tail hr))

end Decoder

end IndexFeed.Json
