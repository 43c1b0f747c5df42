import IndexFeed.Proofs.Json.Completeness

/-!
# How deep a text nests

`nesting` counts the brackets and braces that are open at once, on the octets alone: what stands
inside a string opens and closes nothing.  A text that writes a form, with however much room for
brackets, also writes it with exactly as much room as it nests (`Written.tight`).
-/

set_option autoImplicit false

namespace IndexFeed.Json

open Cursor (Blanks)

/-! ## The scan -/

/-- Where a scan of a text stands with respect to strings. -/
inductive Region where
  | outside
  | string
  /-- behind a backslash in a string -/
  | escape
  deriving DecidableEq, Repr

/-- A scan of a text: how many brackets and braces are open, and the most that have been. -/
structure Depth where
  region : Region
  level : Nat
  most : Nat
  deriving DecidableEq, Repr

/-- The scan behind one more octet. -/
def Depth.step (s : Depth) (b : UInt8) : Depth :=
  match s.region with
  | .escape => { s with region := .string }
  | .string =>
    if b = Octet.quote then { s with region := .outside }
    else if b = Octet.backslash then { s with region := .escape }
    else s
  | .outside =>
    if b = Octet.quote then { s with region := .string }
    else if b = Octet.openBracket ∨ b = Octet.openBrace then
      { s with level := s.level + 1, most := max s.most (s.level + 1) }
    else if b = Octet.closeBracket ∨ b = Octet.closeBrace then { s with level := s.level - 1 }
    else s

/-- The scan behind a text. -/
def Depth.scan (s : Depth) (p : Bytes) : Depth := p.foldl Depth.step s

/-- The most brackets and braces that a text has open at once. -/
def nesting (p : Bytes) : Nat := (Depth.scan ⟨.outside, 0, 0⟩ p).most

theorem Depth.scan_append (s : Depth) (p q : Bytes) : s.scan (p ++ q) = (s.scan p).scan q :=
  List.foldl_append

/-- An octet that outside strings is neither a quote nor a bracket or brace. -/
def isFlat (b : UInt8) : Bool :=
  b != Octet.quote && b != Octet.openBracket && b != Octet.openBrace && b != Octet.closeBracket &&
    b != Octet.closeBrace

/-! ## Balanced texts -/

/-- Outside strings, the text opens `w` more brackets at once and closes them again. -/
def Nests (w : Nat) (p : Bytes) : Prop :=
  ∀ k m, k ≤ m → Depth.scan ⟨.outside, k, m⟩ p = ⟨.outside, k, max m (k + w)⟩

/-- Inside a string, the text neither ends it nor ends inside an escape. -/
def Inner (p : Bytes) : Prop :=
  ∀ k m, Depth.scan ⟨.string, k, m⟩ p = ⟨.string, k, m⟩

namespace Nests

variable {v w : Nat} {p q : Bytes}

theorem nesting_eq (h : Nests w p) : nesting p = w := by
  rw [nesting, h 0 0 (Nat.le_refl 0), Nat.zero_max, Nat.zero_add]

theorem nil : Nests 0 [] := by
  intro k m hkm
  rw [Nat.add_zero, Nat.max_eq_left hkm]
  rfl

theorem append (hp : Nests v p) (hq : Nests w q) : Nests (max v w) (p ++ q) := by
  intro k m hkm
  rw [Depth.scan_append, hp k m hkm, hq k _ (Nat.le_trans hkm (Nat.le_max_left ..)),
    Nat.max_assoc, ← Nat.add_max_add_left]

/-- A text that opens nothing can stand on either side. -/
theorem append_flat (hp : Nests w p) (hq : Nests 0 q) : Nests w (p ++ q) := by
  have happend := hp.append hq
  rwa [Nat.max_zero] at happend

theorem flat_append (hp : Nests 0 p) (hq : Nests w q) : Nests w (p ++ q) := by
  have happend := hp.append hq
  rwa [Nat.zero_max] at happend

theorem one {b : UInt8} (hb : isFlat b = true) : Nests 0 [b] := by
  simp only [isFlat, Bool.and_eq_true, bne_iff_ne] at hb
  obtain ⟨⟨⟨⟨hquote, hbracket⟩, hbrace⟩, hbracket'⟩, hbrace'⟩ := hb
  have hopen : ¬(b = Octet.openBracket ∨ b = Octet.openBrace) := not_or.2 ⟨hbracket, hbrace⟩
  have hclose : ¬(b = Octet.closeBracket ∨ b = Octet.closeBrace) := not_or.2 ⟨hbracket', hbrace'⟩
  intro k m hkm
  rw [Nat.add_zero, Nat.max_eq_left hkm]
  simp only [Depth.scan, List.foldl_cons, List.foldl_nil, Depth.step, if_neg hquote, if_neg hopen,
    if_neg hclose]

theorem flat_cons {b : UInt8} (hb : Nests 0 [b]) (hq : Nests w q) : Nests w (b :: q) :=
  flat_append hb hq

/-- Octets none of which opens anything. -/
theorem flat (h : p.all isFlat = true) : Nests 0 p := by
  induction p with
  | nil => exact nil
  | cons b p ih =>
    rw [List.all_cons, Bool.and_eq_true] at h
    exact flat_cons (one h.1) (ih h.2)

/-- A pair of brackets or braces around a text opens one more. -/
theorem bracketed {a b : UInt8} (ha : a = Octet.openBracket ∨ a = Octet.openBrace)
    (hb : b = Octet.closeBracket ∨ b = Octet.closeBrace) (hp : Nests w p) :
    Nests (w + 1) (a :: (p ++ [b])) := by
  have hopen : a ≠ Octet.quote := by rcases ha with rfl | rfl <;> decide
  have hquote : b ≠ Octet.quote := by rcases hb with rfl | rfl <;> decide
  have hclose : ¬(b = Octet.openBracket ∨ b = Octet.openBrace) := by
    rcases hb with rfl | rfl <;> decide
  intro k m hkm
  have hfirst : Depth.step ⟨.outside, k, m⟩ a = ⟨.outside, k + 1, max m (k + 1)⟩ := by
    simp only [Depth.step, if_neg hopen, if_pos ha]
  have hlast : ∀ l n, Depth.step ⟨.outside, l, n⟩ b = ⟨.outside, l - 1, n⟩ := by
    intro l n
    simp only [Depth.step, if_neg hquote, if_neg hclose, if_pos hb]
  have hscan : Depth.scan ⟨.outside, k, m⟩ (a :: (p ++ [b])) =
      ((Depth.step ⟨.outside, k, m⟩ a).scan p).step b := by
    simp [Depth.scan]
  rw [hscan, hfirst, hp (k + 1) _ (Nat.le_max_right ..), hlast, Depth.mk.injEq]
  refine ⟨rfl, rfl, ?_⟩
  omega

/-- A string opens nothing, whatever stands in it. -/
theorem quoted (hp : Inner p) : Nests 0 (Octet.quote :: (p ++ [Octet.quote])) := by
  intro k m hkm
  have hscan : Depth.scan ⟨.outside, k, m⟩ (Octet.quote :: (p ++ [Octet.quote])) =
      (Depth.scan ⟨.string, k, m⟩ p).step Octet.quote := by
    simp [Depth.scan, Depth.step]
  rw [hscan, hp k m, Nat.add_zero, Nat.max_eq_left hkm]
  rfl

end Nests

theorem isFlat_of_isBlank {b : UInt8} (hb : Octet.isBlank b = true) : isFlat b = true := by
  simp only [Octet.isBlank, Bool.or_eq_true, beq_iff_eq] at hb
  rcases hb with ((rfl | rfl) | rfl) | rfl <;> rfl

theorem nests_blanks {p : Bytes} (hp : Blanks p) : Nests 0 p :=
  Nests.flat (List.all_eq_true.2 fun b hb => isFlat_of_isBlank (hp b hb))

/-! ## Numerals -/

theorem isFlat_of_isDigit {b : UInt8} (hb : Octet.isDigit b = true) : isFlat b = true := by
  simp only [isFlat, Bool.and_eq_true, bne_iff_ne]
  refine ⟨⟨⟨⟨?_, ?_⟩, ?_⟩, ?_⟩, ?_⟩ <;> rintro rfl <;> cases hb

theorem nests_digits {p : Bytes} (hp : Digits p) : Nests 0 p :=
  Nests.flat (List.all_eq_true.2 fun b hb => isFlat_of_isDigit (hp.2 b hb))

theorem nests_exponent {x : Exponent} (hx : x.WellFormed) : Nests 0 x.text := by
  refine Nests.flat_cons ?_ (Nests.flat_append ?_ (nests_digits hx.digits))
  · rcases hx.letter with h | h <;> rw [h] <;> exact Nests.one rfl
  · rcases hx.sign with h | h | h <;> rw [h]
    · exact Nests.nil
    · exact Nests.one rfl
    · exact Nests.one rfl

theorem nests_numeral {x : Numeral} (hx : x.WellFormed) : Nests 0 x.text := by
  obtain ⟨whole, fraction, exponent⟩ := x
  refine Nests.flat_append (nests_digits hx.whole) (Nests.flat_append ?_ ?_)
  · cases fraction with
    | none => exact Nests.nil
    | some f =>
      exact Nests.flat_cons (Nests.one rfl)
        (nests_digits (hx.fraction f rfl))
  · cases exponent with
    | none => exact Nests.nil
    | some e => exact nests_exponent (hx.exponent e rfl)

theorem NumberWritten.nests {x : Number} {p : Bytes} (h : NumberWritten x p) : Nests 0 p := by
  cases h with
  | plain hx => exact nests_numeral hx
  | negative hx =>
    exact Nests.flat_cons (Nests.one rfl) (nests_numeral hx)

/-! ## Strings -/

theorem inner_append {p q : Bytes} (hp : Inner p) (hq : Inner q) : Inner (p ++ q) := by
  intro k m
  rw [Depth.scan_append, hp k m, hq k m]

/-- A backslash hides the octet behind it. -/
theorem inner_escape (b : UInt8) : Inner [Octet.backslash, b] := by
  intro k m
  rfl

theorem inner_one {b : UInt8} (hquote : b ≠ Octet.quote) (hbackslash : b ≠ Octet.backslash) :
    Inner [b] := by
  intro k m
  simp only [Depth.scan, List.foldl_cons, List.foldl_nil, Depth.step, if_neg hquote,
    if_neg hbackslash]

theorem inner_hexDigit {b : UInt8} {n : Nat} (hb : Octet.hexValue? b = some n) : Inner [b] := by
  refine inner_one ?_ ?_ <;> rintro rfl <;> cases hb

/-- The four digits of an escape by number. -/
theorem inner_hexQuad {x y z w : UInt8} {n : Nat} (h : Octet.hexQuad? x y z w = some n) :
    Inner [x, y, z, w] := by
  simp only [Octet.hexQuad?, Option.bind_eq_bind, Option.bind_eq_some_iff] at h
  obtain ⟨a, ha, b, hb, c, hc, d, hd, -⟩ := h
  exact inner_append (inner_hexDigit ha) (inner_append (inner_hexDigit hb)
    (inner_append (inner_hexDigit hc) (inner_hexDigit hd)))

theorem Piece.inner {p bs : Bytes} (h : Piece p bs) : Inner p := by
  cases h with
  | plain _ hquote hbackslash => exact inner_one hquote hbackslash
  | simple => exact inner_escape _
  | numbered hq => exact inner_append (inner_escape _) (inner_hexQuad hq)
  | pair hq _ _ hq' =>
    exact inner_append (inner_escape _) (inner_append (inner_hexQuad hq)
      (inner_append (inner_escape _) (inner_hexQuad hq')))

theorem Pieces.inner {p bs : Bytes} (h : Pieces p bs) : Inner p := by
  induction h with
  | nil =>
    intro k m
    rfl
  | cons hp _ ih => exact inner_append hp.inner ih

theorem StringWritten.nests {s : String} {p : Bytes} (h : StringWritten s p) : Nests 0 p := by
  obtain ⟨q, bs, rfl, hq, -⟩ := h
  exact Nests.quoted hq.inner

/-! ## Values -/

theorem nests_comma : Nests 0 [Octet.comma] := Nests.one rfl

theorem nests_colon : Nests 0 [Octet.colon] := Nests.one rfl

/-- A text that writes a form does so with as much room for brackets as it nests. -/
theorem Written.tight {n : Nat} {f : Form} {p : Bytes} (h : Written n f p) :
    ∃ w, w ≤ n ∧ Nests w p ∧ Written w f p := by
  induction h with
  | null => exact ⟨0, Nat.zero_le _, Nests.flat rfl, .null⟩
  | truth => exact ⟨0, Nat.zero_le _, Nests.flat rfl, .truth⟩
  | falsity => exact ⟨0, Nat.zero_le _, Nests.flat rfl, .falsity⟩
  | number hx => exact ⟨0, Nat.zero_le _, hx.nests, .number hx⟩
  | string hs => exact ⟨0, Nat.zero_le _, hs.nests, .string hs⟩
  | emptyArray ha =>
    exact ⟨1, Nat.le_add_left .., Nests.bracketed (.inl rfl) (.inl rfl) (nests_blanks ha),
      .emptyArray ha⟩
  | array _ ih =>
    obtain ⟨w, hw, hnests, hwritten⟩ := ih
    exact ⟨w + 1, Nat.succ_le_succ hw, Nests.bracketed (.inl rfl) (.inl rfl) hnests,
      .array hwritten⟩
  | emptyObject ha =>
    exact ⟨1, Nat.le_add_left .., Nests.bracketed (.inr rfl) (.inr rfl) (nests_blanks ha),
      .emptyObject ha⟩
  | object _ ih =>
    obtain ⟨w, hw, hnests, hwritten⟩ := ih
    exact ⟨w + 1, Nat.succ_le_succ hw, Nests.bracketed (.inr rfl) (.inr rfl) hnests,
      .object hwritten⟩
  | lastItem ha _ hb ih =>
    obtain ⟨w, hw, hnests, hwritten⟩ := ih
    exact ⟨w, hw, (nests_blanks ha).flat_append (hnests.append_flat (nests_blanks hb)),
      .lastItem ha hwritten hb⟩
  | item ha _ hb _ ih ih' =>
    obtain ⟨v, hv, hnests, hwritten⟩ := ih
    obtain ⟨w, hw, hnests', hwritten'⟩ := ih'
    refine ⟨max v w, Nat.max_le.2 ⟨hv, hw⟩, ?_, .item ha (hwritten.mono (Nat.le_max_left ..)) hb
      (hwritten'.mono (Nat.le_max_right ..))⟩
    exact (nests_blanks ha).flat_append (hnests.append
      ((nests_blanks hb).flat_append (nests_comma.flat_cons hnests')))
  | lastMember ha hk hb hc _ he ih =>
    obtain ⟨w, hw, hnests, hwritten⟩ := ih
    refine ⟨w, hw, ?_, .lastMember ha hk hb hc hwritten he⟩
    exact (nests_blanks ha).flat_append (hk.nests.flat_append ((nests_blanks hb).flat_append
      (nests_colon.flat_cons ((nests_blanks hc).flat_append
        (hnests.append_flat (nests_blanks he))))))
  | member ha hk hb hc _ he _ ih ih' =>
    obtain ⟨v, hv, hnests, hwritten⟩ := ih
    obtain ⟨w, hw, hnests', hwritten'⟩ := ih'
    refine ⟨max v w, Nat.max_le.2 ⟨hv, hw⟩, ?_, .member ha hk hb hc
      (hwritten.mono (Nat.le_max_left ..)) he (hwritten'.mono (Nat.le_max_right ..))⟩
    exact (nests_blanks ha).flat_append (hk.nests.flat_append ((nests_blanks hb).flat_append
      (nests_colon.flat_cons ((nests_blanks hc).flat_append (hnests.append
        ((nests_blanks he).flat_append (nests_comma.flat_cons hnests')))))))

end IndexFeed.Json
