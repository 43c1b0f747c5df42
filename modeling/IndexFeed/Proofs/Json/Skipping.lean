import IndexFeed.Json.Skip
import IndexFeed.Proofs.Json.Completeness

/-!
# Skipping takes every value

`Decoder.skip` walks over every text of a value and stops right behind it, however deep the value
nests: a value leads from one state of the walk to another and leaves the stack of open brackets as
it was.
-/

set_option autoImplicit false

namespace IndexFeed.Json

open Cursor (Blanks)

variable {c d e : Cursor} {n : Nat} {j : Json} {b : UInt8} {p r : Bytes} {stack : List Frame}
  {frame : Frame} {comma : Bool}

/-! ## Strings -/

theorem skipString_quote (h : c.Takes [Octet.quote] d) : skipString c = .ok d := by
  rw [skipString]
  split
  · next hr => rw [h.rest_of_cons] at hr; cases hr
  · next b r hr =>
    obtain ⟨rfl, rfl⟩ := List.cons.inj (h.rest_of_cons.symm.trans hr)
    rw [if_pos rfl]
    exact congrArg Except.ok (Cursor.Takes.unique (Cursor.Takes.tail hr) h)

theorem skipString_plain (hcontrol : ¬b < 0x20) (hquote : b ≠ Octet.quote)
    (hbackslash : b ≠ Octet.backslash) (h : c.Takes [b] d) : skipString c = skipString d := by
  rw [skipString]
  split
  · next hr => rw [h.rest_of_cons] at hr; cases hr
  · next b' r hr =>
    obtain ⟨rfl, rfl⟩ := List.cons.inj (h.rest_of_cons.symm.trans hr)
    rw [if_neg hquote, if_neg hbackslash, if_neg hcontrol]
    exact congrArg skipString (Cursor.Takes.unique (Cursor.Takes.tail hr) h)

/-- An escape that is walked over from behind its backslash. -/
theorem skipString_escape (h : c.Takes (Octet.backslash :: p) d)
    (hp : ∀ {e : Cursor}, e.Takes p d → skipEscape e = .ok d) : skipString c = skipString d := by
  have hne : Octet.backslash ≠ Octet.quote := by decide
  rw [skipString]
  split
  · next hr => rw [h.rest_of_cons] at hr; cases hr
  · next b r hr =>
    obtain ⟨rfl, rfl⟩ := List.cons.inj (h.rest_of_cons.symm.trans hr)
    rw [if_neg hne, if_pos rfl]
    have hescape := hp h.tail_of_cons
    split
    · next hd => rw [hescape] at hd; cases hd; rfl
    · next hd => rw [hescape] at hd; cases hd

theorem skipEscape_simple {x : UInt8} (hx : simpleEscape? b = some x) (h : c.Takes [b] d) :
    skipEscape c = .ok d := by
  rw [skipEscape, h.rest_of_cons]
  dsimp only
  rw [hx, if_pos Option.isSome_some]
  exact congrArg Except.ok (Cursor.Takes.unique (Cursor.Takes.tail h.rest_of_cons) h)

theorem skipEscape_numbered {x y z w : UInt8} (hx : Octet.hexQuad? x y z w = some n)
    (h : c.Takes [Octet.letterU, x, y, z, w] d) : skipEscape c = .ok d := by
  have hletter : simpleEscape? Octet.letterU = none := rfl
  rw [skipEscape, h.rest_of_cons]
  dsimp only
  rw [hletter, if_neg (by decide), if_pos rfl, readQuad_complete hx h.tail_of_cons]
  rfl

theorem skipString_piece {bs : Bytes} (hp : Piece p bs) (h : c.Takes p d) :
    skipString c = skipString d := by
  cases hp with
  | plain hcontrol hquote hbackslash => exact skipString_plain hcontrol hquote hbackslash h
  | simple hx => exact skipString_escape h fun he => skipEscape_simple hx he
  | numbered hx => exact skipString_escape h fun he => skipEscape_numbered hx he
  | @pair x y z w _ _ _ _ _ _ hx _ _ hy =>
    obtain ⟨c', h₁, h₂⟩ := Cursor.Takes.split (p := [Octet.backslash, Octet.letterU, x, y, z, w]) h
    rw [skipString_escape h₁ fun he => skipEscape_numbered hx he,
      skipString_escape h₂ fun he => skipEscape_numbered hy he]

theorem skipString_complete {bs : Bytes} (hp : Pieces p bs)
    (h : c.Takes (p ++ [Octet.quote]) d) : skipString c = .ok d := by
  induction hp generalizing c with
  | nil => exact skipString_quote h
  | cons hpiece _ ih =>
    rw [List.append_assoc] at h
    obtain ⟨c', h₁, h₂⟩ := h.split
    rw [skipString_piece hpiece h₁, ih h₂]

/-! ## Numbers -/

theorem skipExponent_complete {x : Exponent} (hx : x.WellFormed)
    (ht : c.Takes (x.sign ++ x.digits) d) (hd : d.NoDigit) : skipExponent c = .ok d := by
  obtain ⟨c₁, ht₁, ht₂⟩ := ht.split
  have hsign := exponentSign_of_takes hx.sign hx.digits ht
  rw [← ht₁.eq_advance] at hsign
  obtain ⟨b, q, hq, hb⟩ := hx.digits.head
  have hr : c₁.rest = b :: (q ++ d.rest) := by rw [ht₂.1, hq, List.cons_append]
  have hdigits : c₁.digits = x.digits := Cursor.digits_of_takes hx.digits.2 ht₂ hd
  rw [skipExponent, hsign]
  dsimp only
  rw [hr]
  dsimp only
  rw [hb, if_pos rfl, hdigits, ← ht₂.eq_advance]

/-- The end of a numeral: the exponent, if there is one. -/
theorem skipTail_complete {x : Option Exponent} (hx : ∀ y, x = some y → y.WellFormed)
    (ht : c.Takes (x.elim [] Exponent.text) d) (hd : d.Apart) :
    (if c.atExponent then skipExponent (c.advance 1) else .ok c) = .ok d := by
  cases x with
  | none =>
    obtain rfl := Cursor.Takes.unique (Cursor.Takes.refl c) ht
    rw [hd.noExponent]
    rfl
  | some x =>
    have hc : c.atExponent = true := by
      rw [Cursor.atExponent, ht.rest_of_cons]
      simpa using (hx x rfl).letter
    rw [if_pos hc]
    exact skipExponent_complete (hx x rfl) ht.advance_of_cons hd.noDigit

theorem skipScale_complete {x : Numeral} (hx : x.WellFormed)
    (ht : c.Takes (Numeral.scaleText x.fraction x.exponent) d) (hd : d.Apart) :
    skipScale c = .ok d := by
  obtain ⟨whole, fraction, exponent⟩ := x
  dsimp only at ht
  cases fraction with
  | some f =>
    obtain ⟨c₁, ht₁, ht₂⟩ := Cursor.Takes.split ht.advance_of_cons
    have hf := hx.fraction f rfl
    have hdigits := Cursor.digits_of_takes hf.2 ht₁ (noDigit_of_tail hx.exponent ht₂ hd)
    rw [skipScale, ht.rest_of_cons]
    dsimp only
    rw [if_pos rfl, hdigits, if_neg (by simpa using hf.1), ← ht₁.eq_advance]
    exact skipTail_complete hx.exponent ht₂ hd
  | none =>
    have htail := skipTail_complete hx.exponent ht hd
    have hpoint : ∀ b r, c.rest = b :: r → b ≠ Octet.point := by
      intro b r hr
      cases exponent with
      | none =>
        obtain rfl := Cursor.Takes.unique (Cursor.Takes.refl c) ht
        exact hd.noPoint b r hr
      | some y =>
        obtain ⟨rfl, -⟩ := List.cons.inj (hr.symm.trans ht.rest_of_cons)
        intro hb
        rcases (hx.exponent y rfl).letter with h' | h' <;> rw [hb] at h' <;> cases h'
    rw [skipScale]
    split
    · next b r hr =>
      rw [if_neg (hpoint b r hr)]
      exact htail
    · next hr =>
      rw [Cursor.atExponent, hr] at htail
      exact htail

theorem skipNumber_complete {x : Numeral} (hx : x.WellFormed) (ht : c.Takes x.text d)
    (hd : d.Apart) : skipNumber c = .ok d := by
  obtain ⟨c₁, ht₁, ht₂⟩ := ht.split
  have hnext := noDigit_of_scale hx ht₂ hd
  have hdigits := Cursor.digits_of_takes hx.whole.2 ht₁ hnext
  have hscale := skipScale_complete hx ht₂ hd
  obtain ⟨b, q, hq, hb⟩ := hx.whole.head
  have hr : c.rest = b :: (q ++ c₁.rest) := by rw [ht₁.1, hq, List.cons_append]
  have hadvance := ht₁.eq_advance
  rw [skipNumber, hr]
  dsimp only
  rw [hb, if_neg (by decide)]
  split
  · next hzero =>
    -- a zero in front stands alone, so no digit follows it
    have hwhole : x.whole = [Octet.zero] := hx.lead (by rw [hq, hzero]; rfl)
    obtain rfl : q = [] := by simpa [hzero] using hq.symm.trans hwhole
    have hhead : ((([] ++ c₁.rest).head?.map Octet.isDigit).getD false) = false := by
      cases hr₁ : c₁.rest with
      | nil => rfl
      | cons b' r' => simpa using hnext b' r' hr₁
    rw [hhead, if_neg (by decide), ← hscale, hadvance, hq]
    rfl
  · rw [hdigits, ← hadvance, hscale]

/-! ## One step of the walk -/

theorem skipFrom_head (h : Decoder.skipHead.run c = .ok (none, d)) :
    skipFrom .value stack c = skipFrom (.between true) stack d := by
  rw [skipFrom]
  split
  · next h' => rw [h] at h'; cases h'
  · next h' => rw [h] at h'; cases h'; rfl
  · next h' => rw [h] at h'; cases h'

theorem skipFrom_open (h : Decoder.skipHead.run c = .ok (some frame, d)) :
    skipFrom .value stack c = skipFrom (.between false) (frame :: stack) d := by
  rw [skipFrom]
  split
  · next h' => rw [h] at h'; cases h'
  · next h' => rw [h] at h'; cases h'
  · next h' => rw [h] at h'; cases h'; rfl

theorem skipFrom_close (frame : Frame) (h : c.skipBlanks.rest = frame.closing :: r) :
    skipFrom (.between comma) (frame :: stack) c =
      skipFrom (.between true) stack (c.skipBlanks.advance 1) := by
  have hcomma : frame.closing ≠ Octet.comma := by cases frame <;> decide
  have hadvance := Cursor.Takes.unique (Cursor.Takes.tail h) (Cursor.Takes.one h)
  rw [skipFrom.eq_def (.between comma) (frame :: stack) c]
  dsimp only
  split
  · next hr => rw [h] at hr; cases hr
  · next b r' hr =>
    obtain ⟨rfl, rfl⟩ := List.cons.inj (h.symm.trans hr)
    rw [if_neg (fun hb => hcomma hb.1), if_pos rfl, hadvance]

/-- Behind a comma, or right behind the bracket, there is another item. -/
theorem skipFrom_item (h : c.skipBlanks.rest = b :: r) (hb : b ≠ Frame.list.closing) :
    skipFrom (.between false) (.list :: stack) c =
      skipFrom .value (.list :: stack) c.skipBlanks := by
  rw [skipFrom.eq_def (.between false) (.list :: stack) c]
  dsimp only
  split
  · next hr => rw [h] at hr; cases hr
  · next b' r' hr =>
    obtain ⟨rfl, rfl⟩ := List.cons.inj (h.symm.trans hr)
    rw [if_neg (fun hc => Bool.false_ne_true hc.2), if_neg hb, if_neg Bool.false_ne_true]

theorem skipFrom_nextItem (h : c.skipBlanks.rest = Octet.comma :: r) :
    skipFrom (.between true) (.list :: stack) c =
      skipFrom .value (.list :: stack) (c.skipBlanks.advance 1) := by
  have hadvance := Cursor.Takes.unique (Cursor.Takes.tail h) (Cursor.Takes.one h)
  rw [skipFrom.eq_def (.between true) (.list :: stack) c]
  dsimp only
  split
  · next hr => rw [h] at hr; cases hr
  · next b' r' hr =>
    obtain ⟨rfl, rfl⟩ := List.cons.inj (h.symm.trans hr)
    rw [if_pos ⟨rfl, rfl⟩, hadvance]

/-- Behind a comma, or right behind the brace, there is another key. -/
theorem skipFrom_member (h : c.skipBlanks.rest = b :: r) (hb : b ≠ Frame.map.closing)
    (hkey : Decoder.skipKey.run c.skipBlanks = .ok ((), e)) :
    skipFrom (.between false) (.map :: stack) c = skipFrom .value (.map :: stack) e := by
  rw [skipFrom.eq_def (.between false) (.map :: stack) c]
  dsimp only
  split
  · next hr => rw [h] at hr; cases hr
  · next b' r' hr =>
    obtain ⟨rfl, rfl⟩ := List.cons.inj (h.symm.trans hr)
    rw [if_neg (fun hc => Bool.false_ne_true hc.2), if_neg hb, if_neg Bool.false_ne_true]
    split
    · next hk => rw [hkey] at hk; cases hk
    · next hk => rw [hkey] at hk; cases hk; rfl

theorem skipFrom_nextMember (h : c.skipBlanks.rest = Octet.comma :: r)
    (hkey : Decoder.skipKey.run (c.skipBlanks.advance 1) = .ok ((), e)) :
    skipFrom (.between true) (.map :: stack) c = skipFrom .value (.map :: stack) e := by
  have hadvance := Cursor.Takes.unique (Cursor.Takes.tail h) (Cursor.Takes.one h)
  rw [← hadvance] at hkey
  rw [skipFrom.eq_def (.between true) (.map :: stack) c]
  dsimp only
  split
  · next hr => rw [h] at hr; cases hr
  · next b' r' hr =>
    obtain ⟨rfl, rfl⟩ := List.cons.inj (h.symm.trans hr)
    rw [if_pos ⟨rfl, rfl⟩]
    split
    · next hk => rw [hkey] at hk; cases hk
    · next hk => rw [hkey] at hk; cases hk; rfl

theorem skipFrom_nil : skipFrom (.between comma) [] c = .ok c := by
  rw [skipFrom.eq_def (.between comma) [] c]

/-! ## Heads of values and keys -/

/-- Blanks that are skipped anyway may have been skipped before. -/
theorem onHead_skipBlanks {α : Type} (atEnd : Cause) (F : UInt8 → Decoder α) (c : Cursor) :
    (Decoder.onHead atEnd F).run c.skipBlanks = (Decoder.onHead atEnd F).run c := by
  simp only [Decoder.onHead, Cursor.skipBlanks_skipBlanks]

theorem skipFrom_skipBlanks (stack : List Frame) (c : Cursor) :
    skipFrom .value stack c.skipBlanks = skipFrom .value stack c := by
  have hhead : Decoder.skipHead.run c.skipBlanks = Decoder.skipHead.run c := onHead_skipBlanks _ _ c
  rw [skipFrom.eq_def .value stack c.skipBlanks, skipFrom.eq_def .value stack c]
  dsimp only
  generalize Decoder.skipHead.run c.skipBlanks = head at hhead ⊢
  subst hhead
  rfl

theorem skipKey_skipBlanks (c : Cursor) :
    Decoder.skipKey.run c.skipBlanks = Decoder.skipKey.run c := by
  simp only [Decoder.skipKey, Decoder.andThen, onHead_skipBlanks]

theorem walk_run {f : Cursor → Except Fault Cursor}
    (consumes : ∀ {c d : Cursor}, f c = .ok d → c < d) (h : f c = .ok d) :
    (Decoder.walk f consumes).run c = .ok ((), d) := by
  simp only [Decoder.walk, h, Except.map]

theorem walkAfter_run {f : Cursor → Except Fault Cursor}
    (keeps : ∀ {c d : Cursor}, f c = .ok d → c ≤ d) (h : c.Takes (b :: p) d)
    (hf : ∀ {e : Cursor}, e.Takes p d → f e = .ok d) :
    (Decoder.walkAfter f keeps).run c = .ok ((), d) := by
  simp only [Decoder.walkAfter, Decoder.afterHead, h.rest_of_cons, hf h.tail_of_cons, Except.map]

theorem one_run {α : Type} {a : α} (h : c.Takes [b] d) : (Decoder.one a).run c = .ok (a, d) := by
  simp only [Decoder.one, Decoder.afterHead, h.rest_of_cons, Except.ok.injEq, Prod.mk.injEq,
    true_and]
  exact Cursor.Takes.unique (Cursor.Takes.tail h.rest_of_cons) h

/-- A value without brackets is walked over at once. -/
theorem skipHead_atom (h : Written 0 (.value j) p) (ht : c.skipBlanks.Takes p d) (hd : d.Apart) :
    Decoder.skipHead.run c = .ok (none, d) := by
  cases h with
  | null =>
    simp only [Decoder.skipHead, Decoder.onHead, ht.rest_of_cons]
    exact literal_complete ht
  | truth =>
    simp only [Decoder.skipHead, Decoder.onHead, ht.rest_of_cons]
    exact literal_complete ht
  | falsity =>
    simp only [Decoder.skipHead, Decoder.onHead, ht.rest_of_cons]
    exact literal_complete ht
  | number hx =>
    cases hx with
    | @plain x n hx hn =>
      obtain ⟨b, q, hq, hb⟩ := hx.whole.head
      have hr : c.skipBlanks.rest =
          b :: (q ++ Numeral.scaleText x.fraction x.exponent ++ d.rest) := by
        rw [ht.1, Numeral.text, hq]
        rfl
      have hne : b ≠ Octet.letterN ∧ b ≠ Octet.letterT ∧ b ≠ Octet.letterF ∧
          b ≠ Octet.minus := by
        refine ⟨?_, ?_, ?_, ?_⟩ <;> rintro rfl <;> cases hb
      obtain ⟨hn', ht', hf', hm'⟩ := hne
      simp only [Decoder.skipHead, Decoder.onHead, hr, if_neg hn', if_neg ht', if_neg hf',
        if_neg hm', hb, if_true]
      exact Decoder.map_eq_ok_iff.2 ⟨(), walk_run skipNumber_lt (skipNumber_complete hx ht hd), rfl⟩
    | negative hx hn =>
      simp only [Decoder.skipHead, Decoder.onHead, ht.rest_of_cons]
      exact Decoder.map_eq_ok_iff.2
        ⟨(), walkAfter_run (fun h => Cursor.le_of_lt (skipNumber_lt h)) ht
          fun he => skipNumber_complete hx he hd, rfl⟩
  | string hs =>
    obtain ⟨q, bs, rfl, hq, -⟩ := hs
    simp only [Decoder.skipHead, Decoder.onHead, ht.rest_of_cons]
    exact Decoder.map_eq_ok_iff.2
      ⟨(), walkAfter_run skipString_le ht fun he => skipString_complete hq he, rfl⟩

theorem skipHead_openBracket (h : c.skipBlanks.Takes [Octet.openBracket] d) :
    Decoder.skipHead.run c = .ok (some .list, d) := by
  simp only [Decoder.skipHead, Decoder.onHead, h.rest_of_cons]
  exact one_run h

theorem skipHead_openBrace (h : c.skipBlanks.Takes [Octet.openBrace] d) :
    Decoder.skipHead.run c = .ok (some .map, d) := by
  simp only [Decoder.skipHead, Decoder.onHead, h.rest_of_cons]
  exact one_run h

/-- A key and its colon are walked over. -/
theorem skipKey_complete {key : String} {a k t : Bytes} (ha : Blanks a) (hk : StringWritten key k)
    (ht : Blanks t) (h : c.Takes (a ++ (k ++ (t ++ [Octet.colon]))) d) :
    Decoder.skipKey.run c = .ok ((), d) := by
  rw [← List.append_assoc] at h
  obtain ⟨c₁, h₁, h₂⟩ := h.split
  obtain ⟨c₂, h₃, h₄⟩ := h₂.split
  have hkey := hk.skipBlanks ha h₁
  obtain ⟨q, bs, rfl, hq, -⟩ := hk
  have hskip := Cursor.skipBlanks_of_takes ht h₃ (Cursor.solid_of_cons h₄.rest_of_cons rfl)
  have hstring : (Decoder.walkAfter skipString skipString_le).run c.skipBlanks = .ok ((), c₁) :=
    walkAfter_run skipString_le hkey fun he => skipString_complete hq he
  simp only [Decoder.skipKey, Decoder.andThen, Decoder.onHead, hkey.rest_of_cons, if_true, hstring,
    hskip, h₄.rest_of_cons]
  exact one_run h₄

/-! ## Values -/

/-- A text leads from one state of the walk to another: a value to what may follow it, what stands
between brackets to behind the closing one. -/
def Walked : Form → Bytes → Prop
  | .value _, p => ∀ (stack : List Frame) (c d : Cursor), c.skipBlanks.Takes p d → d.Apart →
      skipFrom .value stack c = skipFrom (.between true) stack d
  | .items _, p => ∀ (stack : List Frame) (c d : Cursor) (r : Bytes), c.Takes p d →
      d.rest = Octet.closeBracket :: r →
      skipFrom .value (.list :: stack) c = skipFrom (.between true) stack (d.advance 1)
  | .members _, p => ∀ (stack : List Frame) (c d : Cursor) (r : Bytes), c.Takes p d →
      d.rest = Octet.closeBrace :: r → ∃ e, Decoder.skipKey.run c = .ok ((), e) ∧
        skipFrom .value (.map :: stack) e = skipFrom (.between true) stack (d.advance 1)

theorem walked_atom (h : Written 0 (.value j) p) : Walked (.value j) p := by
  intro stack c d ht hd
  exact skipFrom_head (skipHead_atom h ht hd)

/-- A container without items or members. -/
theorem walked_empty (frame : Frame) {a : Bytes} {opening : UInt8} (ha : Blanks a)
    (hopen : ∀ {c d : Cursor}, c.skipBlanks.Takes [opening] d →
      Decoder.skipHead.run c = .ok (some frame, d)) :
    Walked (.value j) (opening :: (a ++ [frame.closing])) := by
  intro stack c d ht _
  obtain ⟨c₁, h₁, h₂⟩ := Cursor.Takes.split (p := [opening]) ht
  obtain ⟨c₂, h₃, h₄⟩ := h₂.split
  have hblank : Octet.isBlank frame.closing = false := by cases frame <;> rfl
  have hskip := Cursor.skipBlanks_of_takes ha h₃ (Cursor.solid_of_cons h₄.rest_of_cons hblank)
  rw [skipFrom_open (hopen h₁), skipFrom_close frame (hskip ▸ h₄.rest_of_cons), hskip,
    Cursor.Takes.unique (Cursor.Takes.one h₄.rest_of_cons) h₄]

/-- **Skipping a value ends right behind it**, in the state of the walk it began in. -/
theorem written_walked {f : Form} (h : Written n f p) : Walked f p := by
  induction h with
  | null => exact walked_atom .null
  | truth => exact walked_atom .truth
  | falsity => exact walked_atom .falsity
  | number hx => exact walked_atom (.number hx)
  | string hs => exact walked_atom (.string hs)
  | emptyArray ha => exact walked_empty .list ha skipHead_openBracket
  | emptyObject ha => exact walked_empty .map ha skipHead_openBrace
  | @array n js p hp ih =>
    intro stack c d ht _
    obtain ⟨c₁, h₁, h₂⟩ := Cursor.Takes.split (p := [Octet.openBracket]) ht
    obtain ⟨c₂, h₃, h₄⟩ := h₂.split
    obtain ⟨b, r, hr, hb⟩ := hp.items_head h₃
    rw [skipFrom_open (skipHead_openBracket h₁), skipFrom_item hr hb, skipFrom_skipBlanks,
      ih stack c₁ c₂ _ h₃ h₄.rest_of_cons,
      Cursor.Takes.unique (Cursor.Takes.one h₄.rest_of_cons) h₄]
  | @object n ms p hp ih =>
    intro stack c d ht _
    obtain ⟨c₁, h₁, h₂⟩ := Cursor.Takes.split (p := [Octet.openBrace]) ht
    obtain ⟨c₂, h₃, h₄⟩ := h₂.split
    obtain ⟨r, hr⟩ := hp.members_head h₃
    obtain ⟨e, hkey, hrest⟩ := ih stack c₁ c₂ _ h₃ h₄.rest_of_cons
    rw [← skipKey_skipBlanks] at hkey
    rw [skipFrom_open (skipHead_openBrace h₁), skipFrom_member hr (by decide) hkey, hrest,
      Cursor.Takes.unique (Cursor.Takes.one h₄.rest_of_cons) h₄]
  | lastItem ha hj hb ih =>
    intro stack c d r ht hr
    rw [← List.append_assoc] at ht
    obtain ⟨e, ht₁, ht₂⟩ := ht.split
    have hskip := Cursor.skipBlanks_of_takes hb ht₂ (Cursor.solid_of_cons hr rfl)
    have he := apart_of_blanks hb ht₂ (apart_of_cons hr (.inr (.inr (.inl rfl))))
    rw [ih (.list :: stack) c e (hj.skipBlanks ha ht₁) he,
      skipFrom_close .list (hskip ▸ hr), hskip]
  | @item n j js a p b q ha hj hb hq ih ih' =>
    intro stack c d r ht hr
    rw [← List.append_assoc] at ht
    obtain ⟨e, ht₁, ht₂⟩ := ht.split
    obtain ⟨e', hb', hcomma⟩ := ht₂.split
    have hskip := Cursor.skipBlanks_of_takes hb hb' (Cursor.solid_of_cons hcomma.rest_of_cons rfl)
    have he := apart_of_blanks hb hb' (apart_of_cons hcomma.rest_of_cons (.inr (.inl rfl)))
    rw [ih (.list :: stack) c e (hj.skipBlanks ha ht₁) he,
      skipFrom_nextItem (hskip ▸ hcomma.rest_of_cons), hskip,
      ih' stack (e'.advance 1) d r hcomma.advance_of_cons hr]
  | @lastMember n key j a k b e p t ha hk hb he hj ht' ih =>
    intro stack c d r ht hr
    rw [show a ++ (k ++ (b ++ Octet.colon :: (e ++ (p ++ t)))) =
      (a ++ (k ++ (b ++ [Octet.colon]))) ++ (e ++ p) ++ t by simp] at ht
    obtain ⟨f, ht₁, ht₂⟩ := ht.split
    obtain ⟨g, ht₃, ht₄⟩ := ht₁.split
    have hskip := Cursor.skipBlanks_of_takes ht' ht₂ (Cursor.solid_of_cons hr rfl)
    have hf := apart_of_blanks ht' ht₂ (apart_of_cons hr (.inr (.inr (.inr rfl))))
    refine ⟨g, skipKey_complete ha hk hb ht₃, ?_⟩
    rw [ih (.map :: stack) g f (hj.skipBlanks he ht₄) hf,
      skipFrom_close .map (hskip ▸ hr), hskip]
  | @member n key j ms a k b e p t q ha hk hb he hj ht' hq ih ih' =>
    intro stack c d r ht hr
    rw [show a ++ (k ++ (b ++ Octet.colon :: (e ++ (p ++ (t ++ Octet.comma :: q))))) =
      (a ++ (k ++ (b ++ [Octet.colon]))) ++ (e ++ p) ++ (t ++ Octet.comma :: q) by simp] at ht
    obtain ⟨f, ht₁, ht₂⟩ := ht.split
    obtain ⟨g, ht₃, ht₄⟩ := ht₁.split
    obtain ⟨f', hb', hcomma⟩ := ht₂.split
    have hskip := Cursor.skipBlanks_of_takes ht' hb' (Cursor.solid_of_cons hcomma.rest_of_cons rfl)
    have hf := apart_of_blanks ht' hb' (apart_of_cons hcomma.rest_of_cons (.inr (.inl rfl)))
    obtain ⟨e', hkey, hrest⟩ := ih' stack (f'.advance 1) d r hcomma.advance_of_cons hr
    refine ⟨g, skipKey_complete ha hk hb ht₃, ?_⟩
    rw [ih (.map :: stack) g f (hj.skipBlanks he ht₄) hf,
      skipFrom_nextMember (hskip ▸ hcomma.rest_of_cons) (hskip ▸ hkey), hrest]

theorem skip_complete (h : Written n (.value j) p) (ht : c.skipBlanks.Takes p d) (hd : d.Apart) :
    Decoder.skip.run c = .ok ((), d) := by
  have hwalk := written_walked h [] c d ht hd
  rw [skipFrom_nil] at hwalk
  exact walk_run (fun h => (skipFrom_le h).2 rfl) hwalk

end IndexFeed.Json
