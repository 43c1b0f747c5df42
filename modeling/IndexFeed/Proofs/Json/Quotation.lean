import IndexFeed.Json.StringText
import IndexFeed.Proofs.Json.Grammar

/-!
# Reading strings and literals

The readers of words, escapes and strings take exactly the texts that the grammar has for them,
whatever comes behind: a string ends at its first quote that no backslash hides.
-/

set_option autoImplicit false

namespace IndexFeed.Json

variable {c d : Cursor} {bs : Bytes} {n : Nat}

/-! ## Words -/

theorem takeWord_eq_ok_iff {word : Bytes} : takeWord word c = .ok d ↔ c.Takes word d := by
  induction word generalizing c with
  | nil =>
    rw [takeWord, Except.ok.injEq]
    constructor
    · rintro rfl
      exact Cursor.Takes.refl c
    · exact Cursor.Takes.unique (Cursor.Takes.refl c)
  | cons w word ih =>
    rw [takeWord]
    constructor
    · intro h
      split at h
      · cases h
      · next b r hr =>
        split at h
        · next hb =>
          subst hb
          exact Cursor.Takes.cons hr rfl (ih.1 h)
        · cases h
    · intro h
      rw [h.rest_of_cons]
      dsimp only
      rw [if_pos rfl]
      exact ih.2 h.tail_of_cons

theorem literal_sound {α : Type} {word : Bytes} {a x : α} {b : UInt8} {r : Bytes}
    (hr : c.rest = b :: r) (h : (Decoder.literal word a).run c = .ok (x, d)) :
    x = a ∧ c.Takes (b :: word) d := by
  simp only [Decoder.literal, Decoder.afterHead, hr] at h
  split at h
  · next d' hd =>
    cases h
    exact ⟨rfl, Cursor.Takes.cons hr rfl (takeWord_eq_ok_iff.1 hd)⟩
  · cases h

theorem literal_complete {α : Type} {word : Bytes} {a : α} {b : UInt8}
    (h : c.Takes (b :: word) d) : (Decoder.literal word a).run c = .ok (a, d) := by
  simp only [Decoder.literal, Decoder.afterHead, h.rest_of_cons,
    takeWord_eq_ok_iff.2 h.tail_of_cons]

/-! ## Escapes -/

theorem readQuad_sound (h : readQuad c = .ok (n, d)) :
    ∃ x y z w, c.Takes [x, y, z, w] d ∧ Octet.hexQuad? x y z w = some n := by
  unfold readQuad at h
  split at h
  · next x y z w r hr =>
    split at h
    · next hn =>
      cases h
      exact ⟨x, y, z, w, ⟨hr, rfl⟩, hn⟩
    · cases h
  · cases h

theorem readQuad_complete {x y z w : UInt8} (hn : Octet.hexQuad? x y z w = some n)
    (h : c.Takes [x, y, z, w] d) : readQuad c = .ok (n, d) := by
  obtain ⟨index, rest⟩ := d
  obtain ⟨hr, rfl⟩ := h
  unfold readQuad
  rw [hr]
  dsimp only [List.cons_append, List.nil_append]
  rw [hn]
  rfl

theorem takeInPair_eq_ok_iff {w : UInt8} : takeInPair w c = .ok d ↔ c.Takes [w] d := by
  unfold takeInPair
  constructor
  · intro h
    split at h
    · cases h
    · next b r hr =>
      split at h
      · next hb =>
        cases h
        exact hb ▸ Cursor.Takes.tail hr
      · cases h
  · intro h
    rw [h.rest_of_cons]
    dsimp only
    rw [if_pos rfl, Except.ok.injEq]
    exact Cursor.Takes.unique (Cursor.Takes.tail h.rest_of_cons) h

theorem readTrailing_sound {m : Nat} (h : readTrailing m c = .ok (bs, d)) :
    ∃ x y z w n, c.Takes [Octet.backslash, Octet.letterU, x, y, z, w] d ∧
      Octet.hexQuad? x y z w = some n ∧ isTrailing n = true ∧
      bs = scalarOctets (pairValue m n) := by
  simp only [readTrailing, bind, Except.bind] at h
  split at h
  · cases h
  · next c₁ h₁ =>
    split at h
    · cases h
    · next c₂ h₂ =>
      split at h
      · cases h
      · next q h₃ =>
        split at h
        · next hn =>
          obtain ⟨n, c₃⟩ := q
          obtain ⟨rfl, rfl⟩ := Prod.mk.inj (Except.ok.inj h)
          obtain ⟨x, y, z, w, ht, hq⟩ := readQuad_sound h₃
          have ht₁ := takeInPair_eq_ok_iff.1 h₁
          have ht₂ := takeInPair_eq_ok_iff.1 h₂
          exact ⟨x, y, z, w, n, ht₁.trans (ht₂.trans ht), hq, hn, rfl⟩
        · cases h

theorem readTrailing_complete {m : Nat} {x y z w : UInt8}
    (hq : Octet.hexQuad? x y z w = some n) (hn : isTrailing n = true)
    (h : c.Takes [Octet.backslash, Octet.letterU, x, y, z, w] d) :
    readTrailing m c = .ok (scalarOctets (pairValue m n), d) := by
  obtain ⟨c₁, ht₁, h₁⟩ := Cursor.Takes.split (p := [Octet.backslash]) h
  obtain ⟨c₂, ht₂, h₂⟩ := Cursor.Takes.split (p := [Octet.letterU]) h₁
  simp only [readTrailing, bind, Except.bind, takeInPair_eq_ok_iff.2 ht₁,
    takeInPair_eq_ok_iff.2 ht₂, readQuad_complete hq h₂, hn, if_true]

/-- Behind the backslash and the `u`, a number that makes a character or the first half of one. -/
theorem readNumbered_sound (h : readNumbered c = .ok (bs, d)) :
    ∃ p, c.Takes p d ∧ Piece (Octet.backslash :: Octet.letterU :: p) bs := by
  simp only [readNumbered, bind, Except.bind] at h
  split at h
  · cases h
  · next q h₁ =>
    obtain ⟨n, c₁⟩ := q
    obtain ⟨x, y, z, w, ht, hq⟩ := readQuad_sound h₁
    dsimp only at h
    split at h
    · cases h
    · next htrailing =>
      have htrailing : isTrailing n = false := by simpa using htrailing
      split at h
      · next hleading =>
        obtain ⟨x', y', z', w', n', ht', hq', hn', hbs⟩ := readTrailing_sound h
        rw [hbs]
        exact ⟨_, ht.trans ht', .pair hq htrailing hleading hq' hn'⟩
      · next hleading =>
        obtain ⟨rfl, rfl⟩ := Prod.mk.inj (Except.ok.inj h)
        exact ⟨_, ht, .numbered hq htrailing (by simpa using hleading)⟩

theorem readEscape_sound (h : readEscape c = .ok (bs, d)) :
    ∃ p, c.Takes p d ∧ Piece (Octet.backslash :: p) bs := by
  unfold readEscape at h
  split at h
  · cases h
  · next b r hr =>
    split at h
    · next x hx =>
      cases h
      exact ⟨[b], Cursor.Takes.tail hr, .simple hx⟩
    · split at h
      · next hb =>
        subst hb
        obtain ⟨p, ht, hp⟩ := readNumbered_sound h
        exact ⟨Octet.letterU :: p, Cursor.Takes.cons hr rfl ht, hp⟩
      · cases h

theorem readEscape_complete {p : Bytes} (hp : Piece (Octet.backslash :: p) bs)
    (h : c.Takes p d) : readEscape c = .ok (bs, d) := by
  have hletter : simpleEscape? Octet.letterU = none := rfl
  unfold readEscape
  cases hp with
  | plain _ _ hb => exact absurd rfl hb
  | simple hx =>
    rw [h.rest_of_cons]
    dsimp only
    rw [hx]
    exact congrArg (fun e => Except.ok (_, e)) (Cursor.Takes.unique (Cursor.Takes.tail h.1) h)
  | numbered hq htrailing hleading =>
    rw [h.rest_of_cons]
    dsimp only
    rw [hletter]
    simp only [if_true, readNumbered, bind, Except.bind, readQuad_complete hq h.tail_of_cons,
      htrailing, hleading, Bool.false_eq_true, if_false]
  | @pair x y z w _ _ _ _ m n hq htrailing hleading hq' hn' =>
    rw [h.rest_of_cons]
    dsimp only
    rw [hletter]
    obtain ⟨c₁, ht₁, ht₂⟩ := Cursor.Takes.split (p := [x, y, z, w]) h.tail_of_cons
    simp only [if_true, readNumbered, bind, Except.bind, readQuad_complete hq ht₁, htrailing,
      hleading, Bool.false_eq_true, if_false]
    exact readTrailing_complete hq' hn' ht₂

/-! ## Strings -/

theorem readPiece_sound (h : readPiece c = .ok (some bs, d)) : ∃ p, c.Takes p d ∧ Piece p bs := by
  unfold readPiece at h
  split at h
  · cases h
  · next b r hr =>
    split at h
    · cases h
    · next hquote =>
      split at h
      · next hb =>
        split at h
        · next he =>
          cases h
          obtain ⟨p, ht, hp⟩ := readEscape_sound he
          exact ⟨Octet.backslash :: p, Cursor.Takes.cons (hb ▸ hr) rfl ht, hp⟩
        · cases h
      · next hbackslash =>
        split at h
        · cases h
        · next hcontrol =>
          cases h
          exact ⟨[b], Cursor.Takes.tail hr, .plain hcontrol hquote hbackslash⟩

theorem readPiece_complete {p : Bytes} (hp : Piece p bs) (h : c.Takes p d) :
    readPiece c = .ok (some bs, d) := by
  have hescape {q : Bytes} (hp : Piece (Octet.backslash :: q) bs)
      (h : c.Takes (Octet.backslash :: q) d) : readPiece c = .ok (some bs, d) := by
    have hne : Octet.backslash ≠ Octet.quote := by decide
    unfold readPiece
    rw [h.rest_of_cons]
    dsimp only
    rw [if_neg hne, if_pos rfl, readEscape_complete hp h.tail_of_cons]
  cases hp with
  | plain hcontrol hquote hbackslash =>
    unfold readPiece
    rw [h.rest_of_cons]
    dsimp only
    rw [if_neg hquote, if_neg hbackslash, if_neg hcontrol,
      Cursor.Takes.unique h (Cursor.Takes.tail h.rest_of_cons)]
    rfl
  | simple hx => exact hescape (.simple hx) h
  | numbered hq ht hl => exact hescape (.numbered hq ht hl) h
  | pair hq ht hl hq' hn => exact hescape (.pair hq ht hl hq' hn) h

theorem readPiece_eq_none_iff : readPiece c = .ok (none, d) ↔ c.Takes [Octet.quote] d := by
  unfold readPiece
  constructor
  · intro h
    split at h
    · cases h
    · next b r hr =>
      split at h
      · next hb =>
        cases h
        exact hb ▸ Cursor.Takes.tail hr
      · split at h
        · split at h <;> cases h
        · split at h <;> cases h
  · intro h
    rw [h.rest_of_cons]
    dsimp only
    rw [if_pos rfl, Cursor.Takes.unique h (Cursor.Takes.tail h.rest_of_cons)]
    rfl

theorem readOctets_sound (h : readOctets c = .ok (bs, d)) :
    ∃ p, c.Takes (p ++ [Octet.quote]) d ∧ Pieces p bs := by
  fun_induction readOctets c generalizing bs with
  | case1 => cases h
  | case2 c d' hp =>
    cases h
    exact ⟨[], readPiece_eq_none_iff.1 hp, .nil⟩
  | case3 => cases h
  | case4 c bs' d' hp more e hm ih =>
    cases h
    obtain ⟨p, ht, hpiece⟩ := readPiece_sound hp
    obtain ⟨q, hq, hpieces⟩ := ih hm
    refine ⟨p ++ q, ?_, .cons hpiece hpieces⟩
    rw [List.append_assoc]
    exact ht.trans hq

theorem readOctets_complete {p : Bytes} (hp : Pieces p bs) (h : c.Takes (p ++ [Octet.quote]) d) :
    readOctets c = .ok (bs, d) := by
  induction hp generalizing c with
  | nil =>
    have hnone := readPiece_eq_none_iff.2 h
    unfold readOctets
    split
    · next he => rw [hnone] at he; cases he
    · next he => rw [hnone] at he; cases he; rfl
    · next he => rw [hnone] at he; cases he
  | cons hpiece _ ih =>
    rw [List.append_assoc] at h
    obtain ⟨c₁, ht₁, ht₂⟩ := h.split
    have hsome := readPiece_complete hpiece ht₁
    have hmore := ih ht₂
    unfold readOctets
    split
    · next he => rw [hsome] at he; cases he
    · next he => rw [hsome] at he; cases he
    · next he =>
      rw [hsome] at he
      cases he
      rw [hmore]

theorem readString_eq_ok_iff {s : String} :
    readString c = .ok (s, d) ↔
      ∃ q bs, c.Takes (q ++ [Octet.quote]) d ∧ Pieces q bs ∧ Utf8.decode bs = .ok s := by
  unfold readString
  constructor
  · intro h
    split at h
    · cases h
    · next bs d' ho =>
      split at h
      · next hs =>
        cases h
        obtain ⟨q, ht, hq⟩ := readOctets_sound ho
        exact ⟨q, bs, ht, hq, hs⟩
      · cases h
  · rintro ⟨q, bs, ht, hq, hs⟩
    rw [readOctets_complete hq ht]
    dsimp only
    rw [hs]

/-- The octet in front is the quote that has been looked at. -/
theorem quoted_sound {s : String} {r : Bytes} (hr : c.rest = Octet.quote :: r)
    (h : Decoder.quoted.run c = .ok (s, d)) : ∃ p, c.Takes p d ∧ StringWritten s p := by
  simp only [Decoder.quoted, Decoder.afterHead, hr] at h
  obtain ⟨q, bs, ht, hq, hs⟩ := readString_eq_ok_iff.1 h
  exact ⟨_, Cursor.Takes.cons hr rfl ht, q, bs, rfl, hq, hs⟩

theorem quoted_complete {s : String} {p : Bytes} (hp : StringWritten s p) (h : c.Takes p d) :
    Decoder.quoted.run c = .ok (s, d) := by
  obtain ⟨q, bs, rfl, hq, hs⟩ := hp
  simp only [Decoder.quoted, Decoder.afterHead, h.rest_of_cons]
  exact readString_eq_ok_iff.2 ⟨q, bs, h.tail_of_cons, hq, hs⟩

end IndexFeed.Json
