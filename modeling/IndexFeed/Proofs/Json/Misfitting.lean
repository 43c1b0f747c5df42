import IndexFeed.Proofs.Json.Acceptance
import IndexFeed.Proofs.Json.Raising
import IndexFeed.Proofs.Json.Unread

/-!
# Shapes refuse what they do not accept

A shape that does not accept a JSON value says why.  Its decoder refuses every text of the value for
the same reason, although it may stop in the middle of the text and never see the rest.  The
exception are records: an array with more items than the record has fields is left behind the last
field, and what follows there is no longer a matter of shape.
-/

set_option autoImplicit false

namespace IndexFeed.Json

open Cursor (Blanks)

variable {α β σ : Type} {c d : Cursor} {n i : Nat} {j : Json} {js : List Json} {ms : Object}
  {p : Bytes} {s t : σ} {a : α} {x : Cause} {m : Misfit}

/-! ## Decoders -/

/-- The result is a fault with a cause. -/
def FailsWith (r : Except Fault α) (x : Cause) : Prop := ∃ f, r = .error f ∧ f.cause = x

namespace Decoder

variable {D : Decoder α}

/-- On every text of a value with at most so many brackets and braces open, the decoder raises a fault
with one cause. -/
def Raises (D : Decoder α) (n : Nat) (j : Json) (x : Cause) : Prop :=
  ∀ p, Written n (.value j) p → ∀ c d : Cursor, c.skipBlanks.Takes p d → d.Apart →
    FailsWith (D.run c) x

theorem failsWith_map {f : α → β} (h : FailsWith (D.run c) x) : FailsWith ((D.map f).run c) x := by
  obtain ⟨e, he, hx⟩ := h
  exact ⟨e, by simp only [Decoder.map, he], hx⟩

theorem failsWith_refine {f : α → Except Misfit β} (h : FailsWith (D.run c) x) :
    FailsWith ((D.refine f).run c) x := by
  obtain ⟨e, he, hx⟩ := h
  exact ⟨e, by simp only [Decoder.refine, he], hx⟩

/-- What the decoder gives is found unfit. -/
theorem failsWith_of_unfit {f : α → Except Misfit β} (h : D.run c = .ok (a, d))
    (hf : f a = .error m) : FailsWith ((D.refine f).run c) (.misfit m) :=
  ⟨d.misfit m, by simp only [Decoder.refine, h, hf], rfl⟩

theorem Raises.map {f : α → β} (h : D.Raises n j x) : (D.map f).Raises n j x :=
  fun p hp c d ht hd => failsWith_map (h p hp c d ht hd)

theorem Raises.refine {f : α → Except Misfit β} (h : D.Raises n j x) : (D.refine f).Raises n j x :=
  fun p hp c d ht hd => failsWith_refine (h p hp c d ht hd)

theorem Makes.refine_unfit {f : α → Except Misfit β} (h : D.Makes n j a) (hf : f a = .error m) :
    (D.refine f).Raises n j (.misfit m) :=
  fun p hp c d ht hd => failsWith_of_unfit (h p hp c d ht hd) hf

theorem Raises.mapFault {f : Fault → Fault} (h : D.Raises n j x) (hf : ∀ e, (f e).cause = e.cause) :
    (D.mapFault f).Raises n j x := by
  intro p hp c d ht hd
  obtain ⟨e, he, hx⟩ := h p hp c d ht hd
  exact ⟨f e, by simp only [Decoder.mapFault, he], (hf e).trans hx⟩

theorem Raises.settled (h : D.Raises n j x) : D.settled.Raises n j x :=
  h.mapFault fun e => e.settle_spec.1

theorem Raises.under (h : D.Raises n j x) (y : Segment) : (D.under y).Raises n j x :=
  h.mapFault fun _ => rfl

/-- Behind the blanks, the decoder that goes with the first octet of the text. -/
theorem raises_onHead {atEnd : Cause} {F : UInt8 → Decoder α}
    (h : ∀ b q (c d : Cursor), Written n (.value j) (b :: q) → c.Takes (b :: q) d → d.Apart →
      FailsWith ((F b).run c) x) : (Decoder.onHead atEnd F).Raises n j x := by
  intro p hp c d ht hd
  obtain ⟨b, q, rfl, -, -⟩ := hp.head
  simp only [onHead, ht.rest_of_cons]
  exact h b q c.skipBlanks d hp ht hd

/-- At its text there are no blanks to skip. -/
theorem Raises.run (h : D.Raises n j x) (hp : Written n (.value j) p) (ht : c.Takes p d)
    (hd : d.Apart) : FailsWith (D.run c) x := by
  refine h p hp c d ?_ hd
  obtain ⟨b, q, rfl, hb, -⟩ := hp.head
  rwa [Cursor.skipBlanks_of_head ht.rest_of_cons hb]

end Decoder

/-! ## First octets -/

/-- The octet with which a text of the value begins. -/
def Begins (b : UInt8) : Json → Prop
  | .null => b = Octet.letterN
  | .bool true => b = Octet.letterT
  | .bool false => b = Octet.letterF
  | .number _ => b = Octet.minus ∨ Octet.isDigit b = true
  | .string _ => b = Octet.quote
  | .array _ => b = Octet.openBracket
  | .object _ => b = Octet.openBrace

theorem Written.begins {b : UInt8} {q : Bytes} (h : Written n (.value j) (b :: q)) : Begins b j := by
  generalize hbq : b :: q = p at h
  cases h with
  | number hx =>
    obtain ⟨b', q', rfl, hb⟩ := hx.head
    obtain ⟨rfl, -⟩ := List.cons.inj hbq
    exact hb.symm
  | string hs =>
    obtain ⟨q', bs, rfl, -⟩ := hs
    exact (List.cons.inj hbq).1
  | null | truth | falsity | emptyArray | array | emptyObject | object =>
    exact (List.cons.inj hbq).1

theorem Begins.of_quote (h : Begins Octet.quote j) : ∃ str, j = .string str := by
  cases j with
  | string str => exact ⟨str, rfl⟩
  | bool v => cases v <;> cases h
  | number => rcases h with h | h <;> cases h
  | null | array | object => cases h

theorem Begins.of_openBracket (h : Begins Octet.openBracket j) : ∃ js, j = .array js := by
  cases j with
  | array js => exact ⟨js, rfl⟩
  | bool v => cases v <;> cases h
  | number => rcases h with h | h <;> cases h
  | null | string | object => cases h

theorem Begins.of_openBrace (h : Begins Octet.openBrace j) : ∃ ms, j = .object ms := by
  cases j with
  | object ms => exact ⟨ms, rfl⟩
  | bool v => cases v <;> cases h
  | number => rcases h with h | h <;> cases h
  | null | string | array => cases h

/-- A value that is neither an object nor an array opens nothing. -/
theorem Begins.ne_open {b : UInt8} (h : Begins b j) (hobject : ∀ ms, j ≠ .object ms)
    (harray : ∀ js, j ≠ .array js) : b ≠ Octet.openBrace ∧ b ≠ Octet.openBracket := by
  constructor
  · rintro rfl
    obtain ⟨ms, hms⟩ := h.of_openBrace
    exact hobject ms hms
  · rintro rfl
    obtain ⟨js, hjs⟩ := h.of_openBracket
    exact harray js hjs

theorem Begins.of_numeral {b : UInt8} (h : Begins b j)
    (hb : b = Octet.minus ∨ Octet.isDigit b = true) : ∃ y, j = .number y := by
  cases j with
  | number y => exact ⟨y, rfl⟩
  | bool v =>
    cases v
    all_goals
      rcases hb with rfl | hb
      · cases h
      · cases h
        cases hb
  | null | string | array | object =>
    rcases hb with rfl | hb
    · cases h
    · cases h
      cases hb

/-- The decoder of numbers that goes with the first octet reads the number. -/
theorem Written.run_number {y : Number} {b : UInt8} {q : Bytes}
    (h : Written n (.value (.number y)) (b :: q)) (ht : c.Takes (b :: q) d) (hd : d.Apart) :
    b = Octet.minus ∧ Decoder.minusNumber.run c = .ok (y, d) ∨
      b ≠ Octet.minus ∧ Octet.isDigit b = true ∧ Decoder.digitNumber.run c = .ok (y, d) := by
  cases h with
  | number hx =>
    generalize hbq : b :: q = p at hx ht
    cases hx with
    | @plain z _ hz hn =>
      obtain ⟨b', q', hq, hb⟩ := hz.whole.head
      have hhead : b = b' := by
        rw [Numeral.text, hq, List.cons_append] at hbq
        exact (List.cons.inj hbq).1
      subst hhead
      refine .inr ⟨?_, hb, digitNumber_complete hz hn ht hd⟩
      rintro rfl
      cases hb
    | @negative z _ hz hn =>
      exact .inl ⟨(List.cons.inj hbq).1, minusNumber_complete hz hn ht hd⟩

theorem Written.run_string {str : String} {b : UInt8} {q : Bytes}
    (h : Written n (.value (.string str)) (b :: q)) (ht : c.Takes (b :: q) d) :
    Decoder.quoted.run c = .ok (str, d) := by
  cases h with
  | string hs => exact quoted_complete hs ht

/-! ## Values of another kind -/

/-- A value is named by its kind, and numbers, strings and truth values by what they are. -/
theorem raises_mismatch (expected : String) (n : Nat) (j : Json) :
    (Decoder.mismatch expected : Decoder α).Raises n j (.misfit (.kind (.of j) expected)) := by
  refine Decoder.Raises.settled (Decoder.raises_onHead fun b q c d hp ht hd => ?_)
  have hreject : ∀ (D : Decoder Found) (found : Found), D.run c = .ok (found, d) →
      FailsWith ((D.refine fun found => (.error (.kind found expected) : Except Misfit α)).run c)
        (.misfit (.kind found expected)) :=
    fun D found hrun => Decoder.failsWith_of_unfit hrun rfl
  cases j with
  | null =>
    cases hp with
    | null => exact hreject _ _ (literal_complete ht)
  | bool v =>
    cases hp with
    | truth => exact hreject _ _ (literal_complete ht)
    | falsity => exact hreject _ _ (literal_complete ht)
  | number y =>
    have hletters : b ≠ Octet.letterN ∧ b ≠ Octet.letterT ∧ b ≠ Octet.letterF := by
      refine ⟨?_, ?_, ?_⟩ <;> rintro rfl <;> rcases hp.begins with h | h <;> cases h
    rw [if_neg hletters.1, if_neg hletters.2.1, if_neg hletters.2.2]
    rcases hp.run_number ht hd with ⟨hb, hrun⟩ | ⟨hne, hb, hrun⟩
    · rw [if_pos hb]
      exact hreject _ _ (Decoder.map_eq_ok_iff.2 ⟨y, hrun, rfl⟩)
    · rw [if_neg hne, if_pos hb]
      exact hreject _ _ (Decoder.map_eq_ok_iff.2 ⟨y, hrun, rfl⟩)
  | string str =>
    obtain rfl : b = Octet.quote := hp.begins
    exact hreject _ _ (Decoder.map_eq_ok_iff.2 ⟨str, hp.run_string ht, rfl⟩)
  | array js =>
    obtain rfl : b = Octet.openBracket := hp.begins
    exact ⟨_, rfl, rfl⟩
  | object ms =>
    obtain rfl : b = Octet.openBrace := hp.begins
    exact ⟨_, rfl, rfl⟩

/-! ## Items and members -/

theorem readItems_fail {item : Nat → σ → Option (Decoder σ)} {D : Decoder σ}
    (hD : item i s = some D) (h : nextItem (i == 0) c = .ok (true, d)) (hx : FailsWith (D.run d) x) :
    FailsWith (readItems item i s c) x := by
  obtain ⟨f, hf, hx⟩ := hx
  exact ⟨f, by rw [readItems_eq hD, h, onward, if_pos rfl, hf, onward], hx⟩

theorem readMembers_fail {member : String → σ → Decoder σ} {first : Bool} {key : String}
    {e : Cursor} (h : nextKey first c = .ok (true, d)) (hk : Decoder.quoted.run d = .ok (key, e))
    (hx : FailsWith ((member key s).run e) x) : FailsWith (readMembers member first s c) x := by
  obtain ⟨f, hf, hx⟩ := hx
  exact ⟨f, by rw [readMembers_eq, h, onward, if_pos rfl, hk, onward, hf, onward], hx⟩

/-- Where there is another item, an array does not close. -/
theorem closeArray_fail (h : nextItem false c = .ok (true, d)) :
    ∃ f, closeArray c = .error f ∧ f.cause = .trailingCharacters := by
  unfold nextItem at h
  dsimp only at h
  split at h
  · cases h
  · next b r hr =>
    simp only [closeArray, hr]
    split at h
    · cases h
    · next hclose =>
      rw [if_neg hclose]
      split at h
      · next hfalse => cases hfalse
      · split at h
        · next hcomma =>
          split at h
          · cases h
          · next b' r' hr' =>
            split at h
            · cases h
            · next hclose' =>
              rw [if_pos hcomma, hr', if_neg (by simpa using hclose')]
              exact ⟨_, rfl, rfl⟩
        · cases h

/-- What stops reading items one after the other, from the state and the number of the first one on:
an item is refused, or no further one is wanted. -/
inductive ItemsRaise (item : Nat → σ → Option (Decoder σ)) (n : Nat) :
    Cause → Nat → σ → List Json → Prop where
  | here {x : Cause} {i : Nat} {s : σ} {j : Json} {js : List Json} {D : Decoder σ} :
      item i s = some D → D.Raises n j x → ItemsRaise item n x i s (j :: js)
  | full {i : Nat} {s : σ} {j : Json} {js : List Json} :
      item (i + 1) s = none → ItemsRaise item n .trailingCharacters (i + 1) s (j :: js)
  | later {x : Cause} {i : Nat} {s t : σ} {j : Json} {js : List Json} {D : Decoder σ} :
      item i s = some D → D.Makes n j t → ItemsRaise item n x (i + 1) t js →
      ItemsRaise item n x i s (j :: js)

/-- What stops reading members one after the other: a key at which the decoder fails at once, or a
value that is refused. -/
inductive MembersRaise (member : String → σ → Decoder σ) (n : Nat) : Cause → σ → Object → Prop where
  | key {x : Cause} {s : σ} {key : String} {j : Json} {ms : Object} :
      (∀ c, FailsWith ((member key s).run c) x) → MembersRaise member n x s ((key, j) :: ms)
  | here {x : Cause} {s : σ} {key : String} {j : Json} {ms : Object} {D : Decoder σ} :
      member key s = D.afterColon → D.Raises n j x → MembersRaise member n x s ((key, j) :: ms)
  | later {x : Cause} {s t : σ} {key : String} {j : Json} {ms : Object} {D : Decoder σ} :
      member key s = D.afterColon → D.Makes n j t → MembersRaise member n x t ms →
      MembersRaise member n x s ((key, j) :: ms)

/-- The rest of an array behind items that have been read. -/
def closeItems (r : Outcome (Nat × σ)) : Outcome (Nat × σ) :=
  match r with
  | .error e => .error e.leaveArray
  | .ok (v, d) =>
    match closeArray d with
    | .error e => .error e
    | .ok e => .ok (v, e)

theorem failsWith_closeItems {r : Outcome (Nat × σ)} (h : FailsWith r x) :
    FailsWith (closeItems r) x := by
  obtain ⟨f, rfl, hx⟩ := h
  exact ⟨f.leaveArray, rfl, f.leaveArray_spec.1.trans hx⟩

/-- The first of several items, and what is behind it: the end of the array, or a comma and the
others. -/
theorem Written.first_item (hp : Written n (.items (j :: js)) p) {c d : Cursor} {r : Bytes}
    (ht : c.Takes p d) (hr : d.rest = Octet.closeBracket :: r) :
    ∃ q e, Written n (.value j) q ∧ c.skipBlanks.Takes q e ∧ e.Apart ∧
      (js = [] ∨ ∃ (q' : Bytes) (e' : Cursor), Written n (.items js) q' ∧ e'.Takes q' d ∧
        nextItem false e = .ok (true, e'.skipBlanks)) := by
  cases hp with
  | @lastItem _ _ a q b ha hw hb =>
    rw [← List.append_assoc] at ht
    obtain ⟨e, ht₁, ht₂⟩ := ht.split
    have he := apart_of_blanks hb ht₂ (apart_of_cons hr (.inr (.inr (.inl rfl))))
    exact ⟨q, e, hw, hw.skipBlanks ha ht₁, he, .inl rfl⟩
  | @item _ _ _ a q b q' ha hw hb hq =>
    rw [← List.append_assoc] at ht
    obtain ⟨e, ht₁, ht₂⟩ := ht.split
    obtain ⟨e', hb', hcomma⟩ := ht₂.split
    have hskip := Cursor.skipBlanks_of_takes hb hb' (Cursor.solid_of_cons hcomma.rest_of_cons rfl)
    have he := apart_of_blanks hb hb' (apart_of_cons hcomma.rest_of_cons (.inr (.inl rfl)))
    obtain ⟨y, r', hy, hne⟩ := hq.items_head hcomma.advance_of_cons
    exact ⟨q, e, hw, hw.skipBlanks ha ht₁, he, .inr ⟨q', e'.advance 1, hq, hcomma.advance_of_cons,
      nextItem_later hskip hcomma.rest_of_cons hy hne⟩⟩

theorem ItemsRaise.read {item : Nat → σ → Option (Decoder σ)} (h : ItemsRaise item n x i s js)
    (hp : Written n (.items js) p) {c c' d : Cursor} {r : Bytes} (ht : c.Takes p d)
    (hr : d.rest = Octet.closeBracket :: r)
    (hn : nextItem (i == 0) c' = .ok (true, c.skipBlanks)) :
    FailsWith (closeItems (readItems item i s c')) x := by
  induction h generalizing p c c' with
  | here hD hx =>
    obtain ⟨q, e, hw, hq, he, -⟩ := hp.first_item ht hr
    exact failsWith_closeItems (readItems_fail hD hn (hx.run hw hq he))
  | full hD =>
    obtain ⟨f, hclose, hf⟩ := closeArray_fail hn
    rw [readItems_none hD]
    exact ⟨f, by simp only [closeItems, hclose], hf⟩
  | later hD hmake hrest ih =>
    obtain ⟨q, e, hw, hq, he, hbehind⟩ := hp.first_item ht hr
    rw [readItems_more hD hn (hmake.run hw hq he)]
    rcases hbehind with rfl | ⟨q', e', hq', he', hnext⟩
    · cases hrest
    · exact ih hq' he' hnext

/-- An array in which reading the items stops. -/
theorem ItemsRaise.arrayOf {item : Nat → σ → Option (Decoder σ)} (h : ItemsRaise item n x 0 s js)
    (hp : Written (n + 1) (.value (.array js)) p) (ht : c.Takes p d) :
    FailsWith ((Decoder.arrayOf item s).run c) x := by
  cases hp with
  | emptyArray => cases h
  | array hp =>
    obtain ⟨e, hitems, hclose⟩ := ht.tail_of_cons.split
    obtain ⟨b, r, hb, hne⟩ := hp.items_head hitems
    have hread := h.read hp hitems hclose.rest_of_cons (nextItem_first hb hne)
    simp only [Decoder.arrayOf, Decoder.afterHead, ht.rest_of_cons]
    exact hread

/-- A member up to the value behind its colon. -/
theorem Written.run_key {key : String} {a k b u q : Bytes} {c g : Cursor} (ha : Blanks a)
    (hk : StringWritten key k) (hb : Blanks b) (hu : Blanks u) (hw : Written n (.value j) q)
    (ht : c.Takes (a ++ (k ++ (b ++ Octet.colon :: (u ++ q)))) g) :
    ∃ e f, Decoder.quoted.run c.skipBlanks = .ok (key, e) ∧
      (∀ {α : Type} (D : Decoder α), D.afterColon.run e = D.run f) ∧ f.skipBlanks.Takes q g := by
  rw [← List.append_assoc] at ht
  obtain ⟨e, ht₁, ht₂⟩ := ht.split
  rw [List.append_cons] at ht₂
  obtain ⟨f, ht₃, ht₄⟩ := ht₂.split
  exact ⟨e, f, quoted_complete hk (hk.skipBlanks ha ht₁),
    fun D => Decoder.afterColon_complete hb ht₃, hw.skipBlanks hu ht₄⟩

/-- The first of several members: its key, its value behind a colon, and what is behind them. -/
theorem Written.first_member {key : String} (hp : Written n (.members ((key, j) :: ms)) p)
    {c d : Cursor} {r : Bytes} (ht : c.Takes p d) (hr : d.rest = Octet.closeBrace :: r) :
    ∃ q e f g, Decoder.quoted.run c.skipBlanks = .ok (key, e) ∧ Written n (.value j) q ∧
      (∀ {α : Type} (D : Decoder α), D.afterColon.run e = D.run f) ∧ f.skipBlanks.Takes q g ∧
      g.Apart ∧ (ms = [] ∨ ∃ (q' : Bytes) (g' : Cursor), Written n (.members ms) q' ∧ g'.Takes q' d ∧
        nextKey false g = .ok (true, g'.skipBlanks)) := by
  cases hp with
  | @lastMember _ _ _ a k b u q z ha hk hb hu hw hz =>
    rw [show a ++ (k ++ (b ++ Octet.colon :: (u ++ (q ++ z)))) =
      (a ++ (k ++ (b ++ Octet.colon :: (u ++ q)))) ++ z by simp] at ht
    obtain ⟨g, ht₁, ht₂⟩ := ht.split
    have hg := apart_of_blanks hz ht₂ (apart_of_cons hr (.inr (.inr (.inr rfl))))
    obtain ⟨e, f, hkey, hcolon, hq⟩ := Written.run_key ha hk hb hu hw ht₁
    exact ⟨q, e, f, g, hkey, hw, hcolon, hq, hg, .inl rfl⟩
  | @member _ _ _ _ a k b u q z q' ha hk hb hu hw hz hq' =>
    rw [show a ++ (k ++ (b ++ Octet.colon :: (u ++ (q ++ (z ++ Octet.comma :: q'))))) =
      (a ++ (k ++ (b ++ Octet.colon :: (u ++ q)))) ++ (z ++ Octet.comma :: q') by simp] at ht
    obtain ⟨g, ht₁, ht₂⟩ := ht.split
    obtain ⟨g', hz', hcomma⟩ := ht₂.split
    have hskip := Cursor.skipBlanks_of_takes hz hz' (Cursor.solid_of_cons hcomma.rest_of_cons rfl)
    have hg := apart_of_blanks hz hz' (apart_of_cons hcomma.rest_of_cons (.inr (.inl rfl)))
    obtain ⟨e, f, hkey, hcolon, hq⟩ := Written.run_key ha hk hb hu hw ht₁
    obtain ⟨r', hquote⟩ := hq'.members_head hcomma.advance_of_cons
    exact ⟨q, e, f, g, hkey, hw, hcolon, hq, hg, .inr ⟨q', g'.advance 1, hq', hcomma.advance_of_cons,
      nextKey_later hskip hcomma.rest_of_cons hquote⟩⟩

theorem MembersRaise.read {member : String → σ → Decoder σ} (h : MembersRaise member n x s ms)
    (hp : Written n (.members ms) p) {first : Bool} {c c' d : Cursor} {r : Bytes} (ht : c.Takes p d)
    (hr : d.rest = Octet.closeBrace :: r) (hn : nextKey first c' = .ok (true, c.skipBlanks)) :
    FailsWith (readMembers member first s c') x := by
  induction h generalizing p c c' first with
  | key hfail =>
    obtain ⟨q, e, f, g, hkey, -⟩ := hp.first_member ht hr
    exact readMembers_fail hn hkey (hfail e)
  | here hD hx =>
    obtain ⟨q, e, f, g, hkey, hw, hcolon, hq, hg, -⟩ := hp.first_member ht hr
    refine readMembers_fail hn hkey ?_
    rw [hD, hcolon]
    exact hx q hw f g hq hg
  | later hD hmake hrest ih =>
    obtain ⟨q, e, f, g, hkey, hw, hcolon, hq, hg, hbehind⟩ := hp.first_member ht hr
    rw [readMembers_more hn hkey (by rw [hD, hcolon]; exact hmake q hw f g hq hg)]
    rcases hbehind with rfl | ⟨q', g', hq', hg', hnext⟩
    · cases hrest
    · exact ih hq' hg' hnext

/-- An object in which reading the members stops. -/
theorem MembersRaise.objectOf {member : String → σ → Decoder σ} (h : MembersRaise member n x s ms)
    (hp : Written (n + 1) (.value (.object ms)) p) (ht : c.Takes p d) :
    FailsWith ((Decoder.objectOf member s).run c) x := by
  cases hp with
  | emptyObject => cases h
  | object hp =>
    obtain ⟨e, hmembers, hclose⟩ := ht.tail_of_cons.split
    obtain ⟨r, hquote⟩ := hp.members_head hmembers
    obtain ⟨f, hf, hx⟩ := h.read hp hmembers hclose.rest_of_cons (nextKey_first hquote)
    simp only [Decoder.objectOf, Decoder.afterHead, ht.rest_of_cons, readObject]
    rw [hf]
    exact ⟨f.leaveObject, rfl, f.leaveObject_spec.1.trans hx⟩

/-! ## Shapes -/

namespace Shape

variable {y : Shape α}

/-- Whatever the shape does not accept, its decoder refuses in every text of it, for the same
reason. -/
def Refuses (y : Shape α) : Prop :=
  ∀ (n : Nat) (j : Json) (m : Misfit), y.accept j = .error m → y.decode.Raises n j (.misfit m)

theorem Refuses.map {f : α → β} (h : y.Refuses) : (y.map f).Refuses := by
  intro n j m hm
  exact (h n j m (map_eq_error_iff.1 hm)).map

theorem Refuses.refine {f : α → Except Misfit β} (hy : y.Agrees) (h : y.Refuses) :
    (y.refine f).Refuses := by
  intro n j m hm
  rcases bind_eq_error_iff.1 hm with hm | ⟨a, ha, hf⟩
  · exact (h n j m hm).refine
  · exact (hy n j a ha).refine_unfit hf

theorem refuses_text : Shape.text.Refuses := by
  intro n j m hm
  by_cases hj : ∃ str, j = .string str
  · obtain ⟨str, rfl⟩ := hj
    cases hm
  · have hkind : m = .kind (.of j) "a string" := by
      cases j with
      | string str => exact absurd ⟨str, rfl⟩ hj
      | null | bool | number | array | object => exact (Except.error.inj hm).symm
    subst hkind
    refine Decoder.Raises.settled (Decoder.raises_onHead fun b q c d hp ht hd => ?_)
    have hb : b ≠ Octet.quote := by
      rintro rfl
      exact hj hp.begins.of_quote
    rw [if_neg hb]
    exact (raises_mismatch _ n j).run hp ht hd

theorem refuses_number {expected : String} {f : Number → Except Misfit α} :
    (Shape.number expected f).Refuses := by
  intro n j m hm
  by_cases hj : ∃ y, j = .number y
  · obtain ⟨y, rfl⟩ := hj
    have hunfit : f y = .error m := hm
    refine Decoder.Raises.settled (Decoder.raises_onHead fun b q c d hp ht hd => ?_)
    rcases hp.run_number ht hd with ⟨hb, hrun⟩ | ⟨hne, hb, hrun⟩
    · rw [if_pos hb]
      exact Decoder.failsWith_of_unfit hrun hunfit
    · rw [if_neg hne, if_pos hb]
      exact Decoder.failsWith_of_unfit hrun hunfit
  · have hkind : m = .kind (.of j) expected := by
      cases j with
      | number y => exact absurd ⟨y, rfl⟩ hj
      | null | bool | string | array | object => exact (Except.error.inj hm).symm
    subst hkind
    refine Decoder.Raises.settled (Decoder.raises_onHead fun b q c d hp ht hd => ?_)
    have hb : ¬(b = Octet.minus ∨ Octet.isDigit b = true) := fun hb => hj (hp.begins.of_numeral hb)
    rw [if_neg (mt .inl hb), if_neg (mt .inr hb)]
    exact (raises_mismatch _ n j).run hp ht hd

theorem Refuses.optional (h : y.Refuses) : y.optional.Refuses := by
  intro n j m hm
  have hj : j ≠ .null := by
    rintro rfl
    cases hm
  have haccept : (y.accept j).map some = .error m := by
    cases j with
    | null => exact absurd rfl hj
    | bool | number | string | array | object => exact hm
  refine Decoder.raises_onHead fun b q c d hp ht hd => ?_
  rw [if_neg (head_ne_of_ne_null hp hj)]
  exact (h n j m (map_eq_error_iff.1 haccept)).map.run hp ht hd

/-- The first item that is refused stops the list. -/
theorem Refuses.items (hy : y.Agrees) (h : y.Refuses) (n i : Nat) (acc : List α)
    (hm : js.mapM y.accept = .error m) :
    ItemsRaise (fun i items => some ((y.decode.map (· :: items)).under (.item i))) n (.misfit m) i
      acc js := by
  induction js generalizing i acc with
  | nil =>
    rw [List.mapM_nil] at hm
    cases hm
  | cons j js ih =>
    rcases mapM_cons_eq_error_iff.1 hm with hj | ⟨a, hj, hjs⟩
    · exact .here rfl ((h n j m hj).map.under (.item i))
    · exact .later rfl ((hy n j a hj).map.under (.item i)) (ih (i + 1) (a :: acc) hjs)

theorem Refuses.list (hy : y.Agrees) (h : y.Refuses) : y.list.Refuses := by
  intro n j m hm
  by_cases hj : ∃ js, j = .array js
  · obtain ⟨js, rfl⟩ := hj
    refine Decoder.Raises.settled (Decoder.raises_onHead fun b q c d hp ht _ => ?_)
    obtain ⟨hb, k, rfl⟩ := hp.array_head
    rw [if_pos hb]
    exact Decoder.failsWith_map ((h.items hy k 0 [] hm).arrayOf hp ht)
  · have hkind : m = .kind (.of j) "a sequence" := by
      cases j with
      | array js => exact absurd ⟨js, rfl⟩ hj
      | null | bool | number | string | object => exact (Except.error.inj hm).symm
    subst hkind
    refine Decoder.Raises.settled (Decoder.raises_onHead fun b q c d hp ht hd => ?_)
    have hb : b ≠ Octet.openBracket := by
      rintro rfl
      exact hj hp.begins.of_openBracket
    rw [if_neg hb]
    exact (raises_mismatch _ n j).run hp ht hd

end Shape

/-! ## Records -/

namespace Record

variable {r : Record σ α}

/-- An array with items behind those that fill the fields, which fit. -/
def Overlong (r : Record σ α) (j : Json) : Prop :=
  ∃ js t, j = .array js ∧ r.slots.length < js.length ∧ acceptItems r.start r.slots js = .ok t

theorem membersRaise (hagrees : ∀ slot ∈ r.slots, ∀ s, (slot.shape s).Agrees)
    (h : ∀ slot ∈ r.slots, ∀ s, (slot.shape s).Refuses) (n : Nat)
    (hm : r.acceptMembers s ms = .error m) : MembersRaise r.member n (.misfit m) s ms := by
  induction ms generalizing s with
  | nil => cases hm
  | cons member ms ih =>
    obtain ⟨key, j⟩ := member
    rw [acceptMembers] at hm
    split at hm
    · next slot hslot =>
      have hmem := List.mem_of_find?_eq_some hslot
      split at hm
      · next hset =>
        cases hm
        refine .key fun c => ?_
        rw [Record.member, hslot]
        dsimp only
        rw [if_pos hset]
        exact ⟨_, rfl, rfl⟩
      · next hset =>
        have hmember : r.member key s = ((slot.shape s).decode.under (.key key)).afterColon := by
          rw [Record.member, hslot]
          dsimp only
          rw [if_neg hset]
        rcases bind_eq_error_iff.1 hm with hj | ⟨s', hj, hrest⟩
        · exact .here hmember ((h slot hmem s n j m hj).under (.key key))
        · exact .later hmember ((hagrees slot hmem s n j s' hj).under (.key key)) (ih hrest)
    · next hnone =>
      have hskip : (Decoder.skip.map fun _ => s).Makes n j s := (Decoder.makes_skip n j).map
      refine .later ?_ hskip (ih hm)
      rw [Record.member, hnone]

theorem itemsRaise (hagrees : ∀ slot ∈ r.slots, ∀ s, (slot.shape s).Agrees)
    (h : ∀ slot ∈ r.slots, ∀ s, (slot.shape s).Refuses) (n i : Nat)
    (hm : acceptItems s (r.slots.drop i) js = .error m) :
    ItemsRaise r.item n (.misfit m) i s js := by
  induction js generalizing i s with
  | nil =>
    rw [acceptItems_nil] at hm
    cases hm
  | cons j js ih =>
    rcases Nat.lt_or_ge i r.slots.length with hi | hi
    · have hitem : r.item i s = some (((r.slots[i]).shape s).decode.under (.item i)) := by
        rw [item, List.getElem?_eq_getElem hi]
        rfl
      have hmem := List.getElem_mem hi
      rw [List.drop_eq_getElem_cons hi, acceptItems] at hm
      rcases bind_eq_error_iff.1 hm with hj | ⟨s', hj, hrest⟩
      · exact .here hitem ((h _ hmem s n j m hj).under (.item i))
      · exact .later hitem ((hagrees _ hmem s n j s' hj).under (.item i)) (ih (i + 1) hrest)
    · rw [List.drop_eq_nil_of_le hi] at hm
      cases hm

/-- Where the fields are used up, no further item is wanted. -/
theorem itemsRaise_of_overlong (hagrees : ∀ slot ∈ r.slots, ∀ s, (slot.shape s).Agrees) (n i : Nat)
    (hpos : 0 < i ∨ 0 < r.slots.length) (hle : i ≤ r.slots.length)
    (ht : acceptItems s (r.slots.drop i) js = .ok t)
    (hlong : r.slots.length < i + js.length) : ItemsRaise r.item n .trailingCharacters i s js := by
  induction js generalizing i s with
  | nil =>
    rw [List.length_nil] at hlong
    omega
  | cons j js ih =>
    rcases Nat.lt_or_ge i r.slots.length with hi | hi
    · have hitem : r.item i s = some (((r.slots[i]).shape s).decode.under (.item i)) := by
        rw [item, List.getElem?_eq_getElem hi]
        rfl
      rw [List.drop_eq_getElem_cons hi, acceptItems] at ht
      obtain ⟨s', hj, hrest⟩ := bind_eq_ok_iff.1 ht
      have hmake := hagrees _ (List.getElem_mem hi) s n j s' hj
      refine .later hitem (hmake.under (.item i)) (ih (i + 1) (.inl (Nat.succ_pos i)) hi hrest ?_)
      rw [List.length_cons] at hlong
      omega
    · obtain ⟨k, rfl⟩ := Nat.exists_eq_succ_of_ne_zero (show i ≠ 0 by omega)
      refine .full ?_
      rw [item, List.getElem?_eq_none hi]
      rfl

/-- Such an array is not accepted: at the latest, its items are counted. -/
theorem Overlong.refused (h : r.Overlong j) : ∃ m, r.accept j = .error m := by
  obtain ⟨js, t, rfl, hlong, ht⟩ := h
  simp only [accept, ht, bind, Except.bind, if_pos hlong]
  cases r.ofItems (min js.length r.slots.length) t with
  | error m => exact ⟨m, rfl⟩
  | ok a => exact ⟨_, rfl⟩

variable (hagrees : ∀ slot ∈ r.slots, ∀ s, (slot.shape s).Agrees)
  (h : ∀ slot ∈ r.slots, ∀ s, (slot.shape s).Refuses)
include hagrees

theorem raises_overlong (hslots : r.slots ≠ []) (n : Nat) (hj : r.Overlong j) :
    r.decode.Raises n j .trailingCharacters := by
  obtain ⟨js, t, rfl, hlong, ht⟩ := hj
  refine Decoder.Raises.settled (Decoder.raises_onHead fun b q c d hp hc _ => ?_)
  have hbrace : Octet.openBracket ≠ Octet.openBrace := by decide
  obtain ⟨hb, k, rfl⟩ := hp.array_head
  rw [hb, if_neg hbrace, if_pos rfl]
  have hraise := itemsRaise_of_overlong hagrees k 0 (.inr (List.length_pos_iff.2 hslots))
    (Nat.zero_le _) (by rwa [List.drop_zero]) (by rwa [Nat.zero_add])
  exact Decoder.failsWith_refine (hraise.arrayOf hp hc)

include h

theorem raises_object (n : Nat) (hm : r.accept (.object ms) = .error m) :
    r.decode.Raises n (.object ms) (.misfit m) := by
  refine Decoder.Raises.settled (Decoder.raises_onHead fun b q c d hp hc _ => ?_)
  obtain ⟨hb, k, rfl⟩ := hp.object_head
  rw [if_pos hb]
  rcases bind_eq_error_iff.1 hm with hs | ⟨s, hs, hunfit⟩
  · exact Decoder.failsWith_refine ((membersRaise hagrees h k hs).objectOf hp hc)
  · exact Decoder.failsWith_of_unfit ((membersMake hagrees k hs).objectOf hp hc) hunfit

theorem raises_array (n : Nat) (hj : ¬r.Overlong (.array js)) (hm : r.accept (.array js) = .error m) :
    r.decode.Raises n (.array js) (.misfit m) := by
  refine Decoder.Raises.settled (Decoder.raises_onHead fun b q c d hp hc _ => ?_)
  have hbrace : Octet.openBracket ≠ Octet.openBrace := by decide
  obtain ⟨hb, k, rfl⟩ := hp.array_head
  rw [hb, if_neg hbrace, if_pos rfl]
  rcases bind_eq_error_iff.1 hm with hs | ⟨s, hs, hrest⟩
  · have hraise := itemsRaise hagrees h k 0 (by rwa [List.drop_zero])
    exact Decoder.failsWith_refine (hraise.arrayOf hp hc)
  · have hle : js.length ≤ r.slots.length :=
      Nat.le_of_not_lt fun hlong => hj ⟨js, s, rfl, hlong, hs⟩
    have hmake := itemsMake hagrees k 0 (by rwa [List.drop_zero]) (by rwa [List.drop_zero])
    rw [Nat.min_eq_left hle] at hrest
    rcases bind_eq_error_iff.1 hrest with hunfit | ⟨v, -, hcount⟩
    · exact Decoder.failsWith_of_unfit (hmake.arrayOf hp hc) hunfit
    · rw [if_neg (Nat.not_lt_of_le hle)] at hcount
      cases hcount

/-- **A record refuses what it does not accept**, for the same reason.  From an array with items behind
those that fill its fields it stops there and never gets to count them. -/
theorem raises (hslots : r.slots ≠ []) (n : Nat) (hm : r.accept j = .error m) :
    (¬r.Overlong j → r.decode.Raises n j (.misfit m)) ∧
      (r.Overlong j → r.decode.Raises n j .trailingCharacters) := by
  refine ⟨fun hj => ?_, raises_overlong hagrees hslots n⟩
  cases j with
  | object ms => exact raises_object hagrees h n hm
  | array js => exact raises_array hagrees h n hj hm
  | null | bool | number | string =>
    cases hm
    refine Decoder.Raises.settled (Decoder.raises_onHead fun b q c d hp hc hd => ?_)
    obtain ⟨hbrace, hbracket⟩ := hp.begins.ne_open nofun nofun
    rw [if_neg hbrace, if_neg hbracket]
    exact (raises_mismatch _ n _).run hp hc hd

end Record

/-! ## Whole texts -/

namespace Document

variable {text : Bytes} {D : Decoder α}

theorem takes (h : Document n j text) : ∃ p d, Written n (.value j) p ∧
    (Cursor.start text).skipBlanks.Takes p d ∧ d.Apart ∧ Blanks d.rest := by
  obtain ⟨a, p, b, ha, hp, hb, rfl⟩ := h
  let d : Cursor := ⟨(a ++ p).length, b⟩
  have ht : (Cursor.start (a ++ (p ++ b))).Takes (a ++ p) d := by
    refine ⟨?_, ?_⟩
    · simp [Cursor.start, d]
    · simp [Cursor.start, d]
  have hend : d.Takes b ⟨d.index + b.length, []⟩ := ⟨by simp [d], rfl⟩
  exact ⟨p, d, hp, hp.skipBlanks ha ht, apart_of_blanks hb hend (apart_of_nil rfl), hb⟩

theorem parse_of_makes (hj : Document n j text) (h : D.Makes n j a) : D.parse text = .ok a := by
  obtain ⟨p, d, hp, ht, hd, hb⟩ := hj.takes
  exact Decoder.parse_eq_ok_iff.2 ⟨d, h p hp _ d ht hd, hb⟩

theorem parse_of_raises (hj : Document n j text) (h : D.Raises n j x) :
    ∃ e, D.parse text = .error e ∧ e.cause = x := by
  obtain ⟨p, d, hp, ht, hd, -⟩ := hj.takes
  obtain ⟨f, hf, hx⟩ := h p hp _ d ht hd
  exact ⟨f.report .whole text, by rw [Decoder.parse, hf], hx⟩

/-- What is made of the value and then found unfit is reported at the root, without a position. -/
theorem parse_of_unfit {f : α → Except Misfit β} (hj : Document n j text) (h : D.Makes n j a)
    (hf : f a = .error m) : (D.refine f).parse text = .error ⟨.misfit m, none, []⟩ := by
  obtain ⟨p, d, hp, ht, hd, -⟩ := hj.takes
  have hrun : (D.refine f).run (.start text) = .error (d.misfit m) := by
    simp only [Decoder.refine, h p hp _ d ht hd, hf]
  rw [Decoder.parse, hrun]
  rfl

end Document

end IndexFeed.Json
