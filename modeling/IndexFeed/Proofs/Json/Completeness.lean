import IndexFeed.Proofs.Json.Soundness

/-!
# The readers take all of JSON

`Decoder.value n` reads every text of a value with at most `n` brackets and braces open at once,
wherever it stands and whatever comes behind, as long as that does not go on with a numeral.
-/

set_option autoImplicit false

namespace IndexFeed.Json

open Cursor (Blanks)
open Decoder (gatherItem gatherMember)

variable {α β σ : Type} {c d e : Cursor} {n i : Nat} {j : Json} {ms : Object} {b : UInt8}
  {r r' : Bytes} {s t : σ}

/-! ## Behind the colon -/

theorem Decoder.afterColon_complete {D : Decoder α} {p : Bytes}
    (hp : Blanks p) (h : c.Takes (p ++ [Octet.colon]) e) : D.afterColon.run c = D.run e := by
  obtain ⟨c', ht, hcolon⟩ := h.split
  have hskip : c.skipBlanks = c' :=
    Cursor.skipBlanks_of_takes hp ht (Cursor.solid_of_cons hcolon.rest_of_cons rfl)
  simp only [afterColon, onHead, hskip, hcolon.rest_of_cons, if_true, afterOctet, afterHead]
  exact congrArg D.run (Cursor.Takes.unique (Cursor.Takes.tail hcolon.rest_of_cons) hcolon)

/-! ## What comes behind a value -/

theorem isDigit_of_isBlank (hb : Octet.isBlank b = true) : Octet.isDigit b = false := by
  simp only [Octet.isBlank, Bool.or_eq_true, beq_iff_eq] at hb
  rcases hb with ((rfl | rfl) | rfl) | rfl <;> rfl

/-- The octets that can stand behind a value. -/
def Follows (b : UInt8) : Prop :=
  Octet.isBlank b = true ∨ b = Octet.comma ∨ b = Octet.closeBracket ∨ b = Octet.closeBrace

theorem apart_of_cons (h : c.rest = b :: r) (hb : Follows b) : c.Apart := by
  have hends : Octet.isDigit b = false ∧ b ≠ Octet.point ∧ b ≠ Octet.letterE ∧
      b ≠ Octet.capitalE := by
    simp only [Follows, Octet.isBlank, Bool.or_eq_true, beq_iff_eq] at hb
    rcases hb with (((rfl | rfl) | rfl) | rfl) | rfl | rfl | rfl <;> decide
  obtain ⟨hdigit, hpoint, hletter, hcapital⟩ := hends
  refine ⟨Cursor.noDigit_of_cons h hdigit, ?_, ?_⟩
  · intro b' r' h'
    rw [h] at h'
    obtain ⟨rfl, -⟩ := List.cons.inj h'
    exact hpoint
  · simp [Cursor.atExponent, h, hletter, hcapital]

theorem apart_of_nil (h : c.rest = []) : c.Apart := by
  refine ⟨?_, ?_, ?_⟩
  · intro b r hr
    rw [h] at hr
    cases hr
  · intro b r hr
    rw [h] at hr
    cases hr
  · simp [Cursor.atExponent, h]

theorem apart_of_blanks {p : Bytes} (hp : Blanks p) (h : c.Takes p d) (hd : d.Apart) :
    c.Apart := by
  cases p with
  | nil => exact Cursor.Takes.unique h (Cursor.Takes.refl c) ▸ hd
  | cons b p => exact apart_of_cons h.rest_of_cons (.inl (hp b List.mem_cons_self))

/-! ## How texts begin -/

theorem NumberWritten.head {x : Number} {p : Bytes} (h : NumberWritten x p) :
    ∃ b q, p = b :: q ∧ (Octet.isDigit b = true ∨ b = Octet.minus) := by
  cases h with
  | plain hx =>
    obtain ⟨b, q, hq, hb⟩ := hx.whole.head
    exact ⟨b, q ++ _, by rw [Numeral.text, hq, List.cons_append], .inl hb⟩
  | negative => exact ⟨Octet.minus, _, rfl, .inr rfl⟩

/-- A value begins with neither a blank nor a closing bracket. -/
theorem Written.head {p : Bytes} (h : Written n (.value j) p) :
    ∃ b q, p = b :: q ∧ Octet.isBlank b = false ∧ b ≠ Octet.closeBracket := by
  cases h with
  | null => exact ⟨_, _, rfl, rfl, by decide⟩
  | truth => exact ⟨_, _, rfl, rfl, by decide⟩
  | falsity => exact ⟨_, _, rfl, rfl, by decide⟩
  | number hx =>
    obtain ⟨b, q, hq, hb⟩ := hx.head
    refine ⟨b, q, hq, ?_, ?_⟩
    · rcases hb with hb | rfl
      · cases hblank : Octet.isBlank b with
        | false => rfl
        | true => exact absurd (isDigit_of_isBlank hblank) (by simp [hb])
      · rfl
    · rintro rfl
      rcases hb with hb | hb <;> cases hb
  | string hs =>
    obtain ⟨q, bs, rfl, -⟩ := hs
    exact ⟨_, _, rfl, rfl, by decide⟩
  | emptyArray => exact ⟨_, _, rfl, rfl, by decide⟩
  | array => exact ⟨_, _, rfl, rfl, by decide⟩
  | emptyObject => exact ⟨_, _, rfl, rfl, by decide⟩
  | object => exact ⟨_, _, rfl, rfl, by decide⟩

/-- Blanks in front of a value are skipped, and the value stands there. -/
theorem Written.skipBlanks {a p : Bytes} (h : Written n (.value j) p) (ha : Blanks a)
    (ht : c.Takes (a ++ p) d) : c.skipBlanks.Takes p d := by
  obtain ⟨c', ht₁, ht₂⟩ := ht.split
  obtain ⟨b, q, rfl, hb, -⟩ := h.head
  rw [Cursor.skipBlanks_of_takes ha ht₁ (Cursor.solid_of_cons ht₂.rest_of_cons hb)]
  exact ht₂

/-- Blanks in front of a key are skipped, and the key stands there. -/
theorem StringWritten.skipBlanks {s : String} {a p : Bytes} (h : StringWritten s p)
    (ha : Blanks a) (ht : c.Takes (a ++ p) d) : c.skipBlanks.Takes p d := by
  obtain ⟨c', ht₁, ht₂⟩ := ht.split
  obtain ⟨q, bs, rfl, -⟩ := h
  rw [Cursor.skipBlanks_of_takes ha ht₁ (Cursor.solid_of_cons ht₂.rest_of_cons rfl)]
  exact ht₂

/-- An item begins, behind its blanks, with something other than a closing bracket. -/
theorem Written.item_head {a p t : Bytes} (h : Written n (.value j) p) (ha : Blanks a)
    (ht : c.Takes (a ++ (p ++ t)) d) :
    ∃ b r, c.skipBlanks.rest = b :: r ∧ b ≠ Octet.closeBracket := by
  rw [← List.append_assoc] at ht
  obtain ⟨c', ht', -⟩ := ht.split
  obtain ⟨b, u, rfl, -, hb⟩ := h.head
  exact ⟨b, _, (h.skipBlanks ha ht').rest_of_cons, hb⟩

/-- A key begins, behind its blanks, with a quote. -/
theorem StringWritten.key_head {s : String} {a k t : Bytes} (h : StringWritten s k) (ha : Blanks a)
    (ht : c.Takes (a ++ (k ++ t)) d) : ∃ r, c.skipBlanks.rest = Octet.quote :: r := by
  rw [← List.append_assoc] at ht
  obtain ⟨c', ht', -⟩ := ht.split
  have hskip := h.skipBlanks ha ht'
  obtain ⟨q, bs, rfl, -⟩ := h
  exact ⟨_, hskip.rest_of_cons⟩

theorem Written.items_head {js : List Json} {p : Bytes} (h : Written n (.items js) p)
    (ht : c.Takes p d) : ∃ b r, c.skipBlanks.rest = b :: r ∧ b ≠ Octet.closeBracket := by
  cases h with
  | lastItem ha hj => exact hj.item_head ha ht
  | item ha hj => exact hj.item_head ha ht

theorem Written.members_head {p : Bytes} (h : Written n (.members ms) p) (ht : c.Takes p d) :
    ∃ r, c.skipBlanks.rest = Octet.quote :: r := by
  cases h with
  | lastMember ha hk => exact hk.key_head ha ht
  | member ha hk => exact hk.key_head ha ht

/-! ## Between items and members -/

theorem nextItem_close {first : Bool} (h : c.skipBlanks.rest = Octet.closeBracket :: r) :
    nextItem first c = .ok (false, c.skipBlanks) := by
  simp only [nextItem, h, if_true]

theorem nextItem_first (h : c.skipBlanks.rest = b :: r) (hb : b ≠ Octet.closeBracket) :
    nextItem true c = .ok (true, c.skipBlanks) := by
  simp only [nextItem, h, if_neg hb, if_true]

theorem nextItem_later (h : c.skipBlanks = d) (hr : d.rest = Octet.comma :: r)
    (hn : (d.advance 1).skipBlanks.rest = b :: r') (hb : b ≠ Octet.closeBracket) :
    nextItem false c = .ok (true, (d.advance 1).skipBlanks) := by
  have hcomma : Octet.comma ≠ Octet.closeBracket := by decide
  simp only [nextItem, h, hr, hn, if_neg hb, if_neg hcomma, if_true, Bool.false_eq_true, if_false]

theorem nextKey_close {first : Bool} (h : c.skipBlanks.rest = Octet.closeBrace :: r) :
    nextKey first c = .ok (false, c.skipBlanks) := by
  simp only [nextKey, h, if_true]

theorem nextKey_first (h : c.skipBlanks.rest = Octet.quote :: r) :
    nextKey true c = .ok (true, c.skipBlanks) := by
  have hquote : Octet.quote ≠ Octet.closeBrace := by decide
  simp only [nextKey, h, if_neg hquote, if_true]

theorem nextKey_later (h : c.skipBlanks = d) (hr : d.rest = Octet.comma :: r)
    (hn : (d.advance 1).skipBlanks.rest = Octet.quote :: r') :
    nextKey false c = .ok (true, (d.advance 1).skipBlanks) := by
  have hcomma : Octet.comma ≠ Octet.closeBrace := by decide
  simp only [nextKey, h, hr, hn, if_neg hcomma, if_true, Bool.false_eq_true, if_false]

/-! ## One round of each loop -/

theorem readItems_last {item : Nat → σ → Option (Decoder σ)} {D : Decoder σ}
    (hD : item i s = some D) (h : nextItem (i == 0) c = .ok (false, d)) :
    readItems item i s c = .ok ((i, s), d) := by
  rw [readItems]
  split
  · next h' => rw [hD] at h'; cases h'
  · split
    · next h' => rw [h] at h'; cases h'
    · next h' => rw [h] at h'; cases h'; rfl
    · next h' => rw [h] at h'; cases h'

theorem readItems_none {item : Nat → σ → Option (Decoder σ)} (hD : item i s = none) :
    readItems item i s c = .ok ((i, s), c) := by
  rw [readItems]
  split
  · rfl
  · next h' => rw [hD] at h'; cases h'

theorem readItems_more {item : Nat → σ → Option (Decoder σ)} {D : Decoder σ}
    (hD : item i s = some D) (h : nextItem (i == 0) c = .ok (true, d)) (ht : D.run d = .ok (t, e)) :
    readItems item i s c = readItems item (i + 1) t e := by
  rw [readItems]
  split
  · next h' => rw [hD] at h'; cases h'
  · next D' h' =>
    obtain rfl := Option.some.inj (hD.symm.trans h')
    split
    · next h' => rw [h] at h'; cases h'
    · next h' => rw [h] at h'; cases h'
    · next h' =>
      rw [h] at h'
      cases h'
      split
      · next hrun => rw [ht] at hrun; cases hrun
      · next hrun => rw [ht] at hrun; cases hrun; rfl

theorem readMembers_last {member : String → σ → Decoder σ} {first : Bool}
    (h : nextKey first c = .ok (false, d)) : readMembers member first s c = .ok (s, d) := by
  rw [readMembers]
  split
  · next h' => rw [h] at h'; cases h'
  · next h' => rw [h] at h'; cases h'; rfl
  · next h' => rw [h] at h'; cases h'

theorem readMembers_more {member : String → σ → Decoder σ} {first : Bool} {key : String}
    {f : Cursor} (h : nextKey first c = .ok (true, d))
    (hk : Decoder.quoted.run d = .ok (key, e)) (ht : (member key s).run e = .ok (t, f)) :
    readMembers member first s c = readMembers member false t f := by
  rw [readMembers]
  split
  · next h' => rw [h] at h'; cases h'
  · next h' => rw [h] at h'; cases h'
  · next h' =>
    rw [h] at h'
    cases h'
    split
    · next hk' => rw [hk] at hk'; cases hk'
    · next hk' =>
      rw [hk] at hk'
      cases hk'
      split
      · next hrun => rw [ht] at hrun; cases hrun
      · next hrun => rw [ht] at hrun; cases hrun; rfl

/-! ## Reading a text -/

/-- The decoder reads a text and gives a result, wherever the text stands and whatever comes behind
that does not go on with a numeral. -/
def Decoder.Reads (D : Decoder α) (p : Bytes) (a : α) : Prop :=
  ∀ c d : Cursor, c.skipBlanks.Takes p d → d.Apart → D.run c = .ok (a, d)

theorem Decoder.Reads.map {D : Decoder α} {p : Bytes} {a : α} {f : α → β} (h : D.Reads p a) :
    (D.map f).Reads p (f a) :=
  fun c d ht hd => Decoder.map_eq_ok_iff.2 ⟨a, h c d ht hd, rfl⟩

/-- The texts of items that are read one after the other, and what comes of it: how many items there
are, and the state built. -/
inductive ItemsRead (item : Nat → σ → Option (Decoder σ)) : Nat → σ → Bytes → Nat × σ → Prop where
  | last {n i : Nat} {s t : σ} {D : Decoder σ} {j : Json} {a p b : Bytes} : Blanks a →
      Written n (.value j) p → Blanks b → item i s = some D → D.Reads p t →
      ItemsRead item i s (a ++ (p ++ b)) (i + 1, t)
  | more {n i : Nat} {s t : σ} {D : Decoder σ} {j : Json} {a p b q : Bytes} {r : Nat × σ} :
      Blanks a → Written n (.value j) p → Blanks b → item i s = some D → D.Reads p t →
      ItemsRead item (i + 1) t q r → ItemsRead item i s (a ++ (p ++ (b ++ Octet.comma :: q))) r

/-- The texts of members that are read one after the other, and the state built. -/
inductive MembersRead (member : String → σ → Decoder σ) : σ → Bytes → σ → Prop where
  | last {n : Nat} {s t : σ} {D : Decoder σ} {key : String} {j : Json} {a k b e p x : Bytes} :
      Blanks a → StringWritten key k → Blanks b → Blanks e → Written n (.value j) p → Blanks x →
      member key s = D.afterColon → D.Reads p t →
      MembersRead member s (a ++ (k ++ (b ++ Octet.colon :: (e ++ (p ++ x))))) t
  | more {n : Nat} {s t u : σ} {D : Decoder σ} {key : String} {j : Json}
      {a k b e p x q : Bytes} :
      Blanks a → StringWritten key k → Blanks b → Blanks e → Written n (.value j) p → Blanks x →
      member key s = D.afterColon → D.Reads p t → MembersRead member t q u →
      MembersRead member s (a ++ (k ++ (b ++ Octet.colon :: (e ++ (p ++ (x ++ Octet.comma :: q)))))) u

theorem ItemsRead.head {item : Nat → σ → Option (Decoder σ)} {p : Bytes} {r : Nat × σ}
    (h : ItemsRead item i s p r) (ht : c.Takes p d) :
    ∃ b r, c.skipBlanks.rest = b :: r ∧ b ≠ Octet.closeBracket := by
  cases h with
  | last ha hj => exact hj.item_head ha ht
  | more ha hj => exact hj.item_head ha ht

theorem MembersRead.head {member : String → σ → Decoder σ} {p : Bytes}
    (h : MembersRead member s p t) (ht : c.Takes p d) :
    ∃ r, c.skipBlanks.rest = Octet.quote :: r := by
  cases h with
  | last ha hk => exact hk.key_head ha ht
  | more ha hk => exact hk.key_head ha ht

/-- Behind the last item there is none, whether or not another one is wanted. -/
theorem readItems_end {item : Nat → σ → Option (Decoder σ)} (h : c.skipBlanks = d)
    (hr : d.rest = Octet.closeBracket :: r) :
    ∃ e, readItems item i s c = .ok ((i, s), e) ∧ e.skipBlanks = d := by
  cases hD : item i s with
  | none => exact ⟨c, readItems_none hD, h⟩
  | some D =>
    have hclose := readItems_last hD (nextItem_close (h ▸ hr))
    exact ⟨c.skipBlanks, hclose, by rw [Cursor.skipBlanks_skipBlanks, h]⟩

/-- The loop over items reads them all; it may leave the blanks behind the last one. -/
theorem ItemsRead.complete {item : Nat → σ → Option (Decoder σ)} {p : Bytes} {v : Nat × σ}
    (h : ItemsRead item i s p v) {c c' d : Cursor} (ht : c.Takes p d)
    (hr : d.rest = Octet.closeBracket :: r)
    (hn : nextItem (i == 0) c' = .ok (true, c.skipBlanks)) :
    ∃ e, readItems item i s c' = .ok (v, e) ∧ e.skipBlanks = d := by
  induction h generalizing c c' with
  | @last n i s t D j a p b ha hj hb hD hp =>
    rw [← List.append_assoc] at ht
    obtain ⟨e, ht₁, ht₂⟩ := ht.split
    have hskip := Cursor.skipBlanks_of_takes hb ht₂ (Cursor.solid_of_cons hr rfl)
    have he := apart_of_blanks hb ht₂ (apart_of_cons hr (.inr (.inr (.inl rfl))))
    have hrun := hp c.skipBlanks e (by simpa using hj.skipBlanks ha ht₁) he
    rw [readItems_more hD hn hrun]
    exact readItems_end hskip hr
  | @more n i s t D j a p b q v ha hj hb hD hp hq ih =>
    rw [← List.append_assoc] at ht
    obtain ⟨e, ht₁, ht₂⟩ := ht.split
    obtain ⟨e', hb', hcomma⟩ := ht₂.split
    have hskip := Cursor.skipBlanks_of_takes hb hb' (Cursor.solid_of_cons hcomma.rest_of_cons rfl)
    have he := apart_of_blanks hb hb' (apart_of_cons hcomma.rest_of_cons (.inr (.inl rfl)))
    have hrun := hp c.skipBlanks e (by simpa using hj.skipBlanks ha ht₁) he
    obtain ⟨x, r', hx, hne⟩ := hq.head hcomma.advance_of_cons
    rw [readItems_more hD hn hrun]
    exact ih hcomma.advance_of_cons (nextItem_later hskip hcomma.rest_of_cons hx hne)

/-- A key, its colon and its value are read. -/
theorem member_complete {D : Decoder α} {key : String} {a k b e p : Bytes} {f : Cursor} {x : α}
    (ha : Blanks a) (hk : StringWritten key k) (hb : Blanks b) (he : Blanks e)
    (hj : Written n (.value j) p) (hp : D.Reads p x)
    (ht : c.Takes (a ++ (k ++ (b ++ Octet.colon :: (e ++ p)))) f) (hf : f.Apart) :
    ∃ c', Decoder.quoted.run c.skipBlanks = .ok (key, c') ∧ D.afterColon.run c' = .ok (x, f) := by
  rw [← List.append_assoc] at ht
  obtain ⟨c₁, ht₁, ht₂⟩ := ht.split
  rw [List.append_cons] at ht₂
  obtain ⟨c₂, ht₃, ht₄⟩ := ht₂.split
  refine ⟨c₁, quoted_complete hk (hk.skipBlanks ha ht₁), ?_⟩
  rw [Decoder.afterColon_complete hb ht₃]
  exact hp c₂ f (hj.skipBlanks he ht₄) hf

/-- The loop over members reads them all. -/
theorem MembersRead.complete {member : String → σ → Decoder σ} {p : Bytes}
    (h : MembersRead member s p t) {first : Bool} {c c' d : Cursor} (ht : c.Takes p d)
    (hr : d.rest = Octet.closeBrace :: r) (hn : nextKey first c' = .ok (true, c.skipBlanks)) :
    readMembers member first s c' = .ok (t, d) := by
  induction h generalizing c c' first with
  | @last n s t D key j a k b e p x ha hk hb he hj hx hD hp =>
    rw [show a ++ (k ++ (b ++ Octet.colon :: (e ++ (p ++ x)))) =
      (a ++ (k ++ (b ++ Octet.colon :: (e ++ p)))) ++ x by simp] at ht
    obtain ⟨f, ht₁, ht₂⟩ := ht.split
    have hskip := Cursor.skipBlanks_of_takes hx ht₂ (Cursor.solid_of_cons hr rfl)
    have hf := apart_of_blanks hx ht₂ (apart_of_cons hr (.inr (.inr (.inr rfl))))
    obtain ⟨c₁, hkey, hrun⟩ := member_complete ha hk hb he hj hp ht₁ hf
    rw [readMembers_more hn hkey (hD ▸ hrun), readMembers_last (nextKey_close (hskip ▸ hr)), hskip]
  | @more n s t u D key j a k b e p x q ha hk hb he hj hx hD hp hq ih =>
    rw [show a ++ (k ++ (b ++ Octet.colon :: (e ++ (p ++ (x ++ Octet.comma :: q))))) =
      (a ++ (k ++ (b ++ Octet.colon :: (e ++ p)))) ++ (x ++ Octet.comma :: q) by simp] at ht
    obtain ⟨f, ht₁, ht₂⟩ := ht.split
    obtain ⟨f', hx', hcomma⟩ := ht₂.split
    have hskip := Cursor.skipBlanks_of_takes hx hx' (Cursor.solid_of_cons hcomma.rest_of_cons rfl)
    have hf := apart_of_blanks hx hx' (apart_of_cons hcomma.rest_of_cons (.inr (.inl rfl)))
    obtain ⟨c₁, hkey, hrun⟩ := member_complete ha hk hb he hj hp ht₁ hf
    obtain ⟨r', hquote⟩ := hq.head hcomma.advance_of_cons
    rw [readMembers_more hn hkey (hD ▸ hrun)]
    exact ih hcomma.advance_of_cons (nextKey_later hskip hcomma.rest_of_cons hquote)

/-! ## Containers -/

theorem closeArray_complete (h : c.skipBlanks = d) (hr : d.rest = Octet.closeBracket :: r) :
    closeArray c = .ok (d.advance 1) := by
  simp only [closeArray, h, hr, if_true]

theorem closeObject_complete (h : c.rest = Octet.closeBrace :: r) :
    closeObject c = .ok (c.advance 1) := by
  simp only [closeObject, Cursor.skipBlanks_of_head h rfl, h, if_true]

/-- The brackets of an array around a text that the loop over items reads. -/
theorem arrayOf_of_readItems {item : Nat → σ → Option (Decoder σ)} {p : Bytes} {v : Nat × σ}
    (ht : c.Takes (Octet.openBracket :: (p ++ [Octet.closeBracket])) d)
    (h : ∀ c' e r, c'.Takes p e → e.rest = Octet.closeBracket :: r →
      ∃ f, readItems item 0 s c' = .ok (v, f) ∧ f.skipBlanks = e) :
    (Decoder.arrayOf item s).run c = .ok (v, d) := by
  obtain ⟨e, hp, hclose⟩ := ht.tail_of_cons.split
  obtain ⟨f, hitems, hf⟩ := h _ e _ hp hclose.rest_of_cons
  simp only [Decoder.arrayOf, Decoder.afterHead, ht.rest_of_cons, readArray]
  rw [hitems]
  dsimp only
  rw [closeArray_complete hf hclose.rest_of_cons,
    Cursor.Takes.unique (Cursor.Takes.one hclose.rest_of_cons) hclose]

theorem arrayOf_complete {item : Nat → σ → Option (Decoder σ)} {p : Bytes} {v : Nat × σ}
    (h : ItemsRead item 0 s p v)
    (ht : c.Takes (Octet.openBracket :: (p ++ [Octet.closeBracket])) d) :
    (Decoder.arrayOf item s).run c = .ok (v, d) := by
  refine arrayOf_of_readItems ht fun c' e r hp hr => ?_
  obtain ⟨b, r', hb, hne⟩ := h.head hp
  exact h.complete hp hr (nextItem_first hb hne)

/-- An array without items. -/
theorem arrayOf_empty {item : Nat → σ → Option (Decoder σ)} {a : Bytes} (ha : Blanks a)
    (ht : c.Takes (Octet.openBracket :: (a ++ [Octet.closeBracket])) d) :
    (Decoder.arrayOf item s).run c = .ok ((0, s), d) := by
  refine arrayOf_of_readItems ht fun c' e r ha' hr => ?_
  exact readItems_end (Cursor.skipBlanks_of_takes ha ha' (Cursor.solid_of_cons hr rfl)) hr

/-- The braces of an object around a text that the loop over members reads. -/
theorem objectOf_of_readMembers {member : String → σ → Decoder σ} {p : Bytes}
    (ht : c.Takes (Octet.openBrace :: (p ++ [Octet.closeBrace])) d)
    (h : ∀ c' e r, c'.Takes p e → e.rest = Octet.closeBrace :: r →
      readMembers member true s c' = .ok (t, e)) :
    (Decoder.objectOf member s).run c = .ok (t, d) := by
  obtain ⟨e, hp, hclose⟩ := ht.tail_of_cons.split
  have hmembers := h _ e _ hp hclose.rest_of_cons
  simp only [Decoder.objectOf, Decoder.afterHead, ht.rest_of_cons, readObject]
  rw [hmembers]
  dsimp only
  rw [closeObject_complete hclose.rest_of_cons,
    Cursor.Takes.unique (Cursor.Takes.one hclose.rest_of_cons) hclose]

theorem objectOf_complete {member : String → σ → Decoder σ} {p : Bytes}
    (h : MembersRead member s p t)
    (ht : c.Takes (Octet.openBrace :: (p ++ [Octet.closeBrace])) d) :
    (Decoder.objectOf member s).run c = .ok (t, d) := by
  refine objectOf_of_readMembers ht fun c' e r hp hr => ?_
  obtain ⟨r', hquote⟩ := h.head hp
  exact h.complete hp hr (nextKey_first hquote)

/-- An object without members. -/
theorem objectOf_empty {member : String → σ → Decoder σ} {a : Bytes} (ha : Blanks a)
    (ht : c.Takes (Octet.openBrace :: (a ++ [Octet.closeBrace])) d) :
    (Decoder.objectOf member s).run c = .ok (s, d) := by
  refine objectOf_of_readMembers ht fun c' e r ha' hr => ?_
  have hskip := Cursor.skipBlanks_of_takes ha ha' (Cursor.solid_of_cons hr rfl)
  rw [readMembers_last (nextKey_close (hskip ▸ hr)), hskip]

/-! ## Values -/

/-- A text is read as its form: a value by the decoder of values, what stands between brackets item
by item or member by member. -/
def Accepted (n : Nat) : Form → Bytes → Prop
  | .value j, p => (Decoder.value n).Reads p j
  | .items js, p => ∀ (i : Nat) (s : List Json),
      ItemsRead (gatherItem (Decoder.value n)) i s p (i + js.length, js.reverse ++ s)
  | .members ms, p => ∀ s : Object,
      MembersRead (gatherMember (Decoder.value n)) s p (ms.reverse ++ s)

/-- A value without brackets is read whatever the decoders for brackets are. -/
theorem valueWith_atom {array object : Decoder Json} {p : Bytes} (h : Written 0 (.value j) p)
    (ht : c.skipBlanks.Takes p d) (hd : d.Apart) :
    (Decoder.valueWith array object).run c = .ok (j, d) := by
  cases h with
  | null =>
    simp only [Decoder.valueWith, Decoder.onHead, ht.rest_of_cons]
    exact literal_complete ht
  | truth =>
    simp only [Decoder.valueWith, Decoder.onHead, ht.rest_of_cons]
    exact literal_complete ht
  | falsity =>
    simp only [Decoder.valueWith, Decoder.onHead, ht.rest_of_cons]
    exact literal_complete ht
  | number hx =>
    cases hx with
    | @plain x n hx hn =>
      obtain ⟨b, q, hq, hb⟩ := hx.whole.head
      have hr : c.skipBlanks.rest =
          b :: (q ++ Numeral.scaleText x.fraction x.exponent ++ d.rest) := by
        rw [ht.1, Numeral.text, hq]
        rfl
      have hne : b ≠ Octet.letterN ∧ b ≠ Octet.letterT ∧ b ≠ Octet.letterF ∧
          b ≠ Octet.minus := by
        refine ⟨?_, ?_, ?_, ?_⟩ <;> rintro rfl <;> cases hb
      obtain ⟨hn', ht', hf', hm'⟩ := hne
      simp only [Decoder.valueWith, Decoder.onHead, hr, if_neg hn', if_neg ht', if_neg hf',
        if_neg hm', hb, if_true]
      exact Decoder.map_eq_ok_iff.2 ⟨_, digitNumber_complete hx hn ht hd, rfl⟩
    | negative hx hn =>
      simp only [Decoder.valueWith, Decoder.onHead, ht.rest_of_cons]
      exact Decoder.map_eq_ok_iff.2 ⟨_, minusNumber_complete hx hn ht hd, rfl⟩
  | string hs =>
    have hrun := quoted_complete hs ht
    obtain ⟨q, bs, rfl, -⟩ := hs
    simp only [Decoder.valueWith, Decoder.onHead, ht.rest_of_cons]
    exact Decoder.map_eq_ok_iff.2 ⟨_, hrun, rfl⟩

theorem value_atom {p : Bytes} (h : Written 0 (.value j) p) : Accepted n (.value j) p := by
  intro c d ht hd
  cases n with
  | zero => exact valueWith_atom h ht hd
  | succ n => exact valueWith_atom h ht hd

theorem value_of_arrayOf {k : Nat} {js : List Json} {q : Bytes}
    (ht : c.skipBlanks.Takes (Octet.openBracket :: q) d)
    (h : (Decoder.arrayOf (gatherItem (Decoder.value n)) []).run c.skipBlanks =
      .ok ((k, js), d)) : (Decoder.value (n + 1)).run c = .ok (.array js.reverse, d) := by
  simp only [Decoder.value, Decoder.valueWith, Decoder.onHead, ht.rest_of_cons]
  exact Decoder.map_eq_ok_iff.2 ⟨(k, js), h, rfl⟩

theorem value_of_membersAround {q : Bytes}
    (ht : c.skipBlanks.Takes (Octet.openBrace :: q) d)
    (h : (Decoder.membersAround (Decoder.value n)).run c.skipBlanks = .ok (ms, d)) :
    (Decoder.value (n + 1)).run c = .ok (.object ms, d) := by
  simp only [Decoder.value, Decoder.valueWith, Decoder.onHead, ht.rest_of_cons]
  exact Decoder.map_eq_ok_iff.2 ⟨ms, h, rfl⟩

/-- An object whose members are read, from its brace on. -/
theorem members_accepted {p : Bytes} (h : Accepted n (.members ms) p)
    (ht : c.Takes (Octet.openBrace :: (p ++ [Octet.closeBrace])) d) :
    (Decoder.membersAround (Decoder.value n)).run c = .ok (ms, d) := by
  have hmembers := objectOf_complete (h []) ht
  rw [List.append_nil] at hmembers
  exact Decoder.map_eq_ok_iff.2 ⟨ms.reverse, hmembers, List.reverse_reverse ms⟩

/-- An object without members, from its brace on. -/
theorem noMembers_accepted {a : Bytes} (ha : Blanks a)
    (ht : c.Takes (Octet.openBrace :: (a ++ [Octet.closeBrace])) d) :
    (Decoder.membersAround (Decoder.value n)).run c = .ok ([], d) :=
  Decoder.map_eq_ok_iff.2 ⟨[], objectOf_empty ha ht, rfl⟩

theorem written_accepted {f : Form} {p : Bytes} (h : Written n f p) : Accepted n f p := by
  induction h with
  | null => exact value_atom .null
  | truth => exact value_atom .truth
  | falsity => exact value_atom .falsity
  | number hx => exact value_atom (.number hx)
  | string hs => exact value_atom (.string hs)
  | emptyArray ha =>
    intro c d ht _
    exact value_of_arrayOf ht (arrayOf_empty ha ht)
  | @array n js p h ih =>
    intro c d ht _
    have harray := value_of_arrayOf ht (arrayOf_complete (ih 0 []) ht)
    rwa [List.append_nil, List.reverse_reverse] at harray
  | emptyObject ha =>
    intro c d ht _
    exact value_of_membersAround ht (noMembers_accepted ha ht)
  | object h ih =>
    intro c d ht _
    exact value_of_membersAround ht (members_accepted ih ht)
  | lastItem ha hj hb ih =>
    intro i s
    exact .last ha hj hb rfl ih.map
  | @item n j js a p b q ha hj hb hq ih ih' =>
    intro i s
    have hrest := ih' (i + 1) (j :: s)
    rw [List.length_cons, List.reverse_cons, List.append_assoc, List.singleton_append,
      Nat.add_comm js.length 1, ← Nat.add_assoc]
    exact .more ha hj hb rfl ih.map hrest
  | lastMember ha hk hb he hj ht' ih =>
    intro s
    exact .last ha hk hb he hj ht' rfl ih.map
  | @member n key j ms a k b e p t q ha hk hb he hj ht' hq ih ih' =>
    intro s
    have hrest := ih' ((key, j) :: s)
    rw [List.reverse_cons, List.append_assoc, List.singleton_append]
    exact .more ha hk hb he hj ht' rfl ih.map hrest

/-- Every text of a value is read, whatever comes behind that does not go on with a numeral. -/
theorem value_complete {p : Bytes} (h : Written n (.value j) p) (ht : c.skipBlanks.Takes p d)
    (hd : d.Apart) : (Decoder.value n).run c = .ok (j, d) :=
  written_accepted h c d ht hd

/-- Every text of an object is read by the decoder of members, from its brace on. -/
theorem membersAround_complete {p : Bytes} (h : Written (n + 1) (.value (.object ms)) p)
    (ht : c.Takes p d) : (Decoder.membersAround (Decoder.value n)).run c = .ok (ms, d) := by
  cases h with
  | emptyObject ha => exact noMembers_accepted ha ht
  | object h => exact members_accepted (written_accepted h) ht

end IndexFeed.Json
