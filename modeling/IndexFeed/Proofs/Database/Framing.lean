import IndexFeed.Proofs.Database.Delivery
import IndexFeed.Proofs.Json.Document

/-!
# What the framing accepts

A reader that never halts comes to the end of a document if and only if the document is an array of
objects between blanks, and then it has delivered exactly the objects of the array.  It has room for
one bracket more than a decoder of whole texts, which counts the brackets of the root array too.

`Remains` is the language of each state of the framing, one constructor for each sort of step.  The
induction over a run goes along the steps in one direction and along `Remains` in the other.
-/

set_option autoImplicit false

namespace IndexFeed.Database

open Json (Cursor Object Written ItemsTail Document deepest normalMembers)
open Json.Cursor (Blanks)

/-! ## The language of the framing -/

/-- An octet of the framing, with what is allowed before and after it. -/
inductive Framing : Expect → UInt8 → Expect → Prop where
  | start : Framing .opening Octet.openBracket .firstElement
  | closeEmpty : Framing .firstElement Octet.closeBracket .trailing
  | close : Framing .nextElement Octet.closeBracket .trailing
  | separator : Framing .nextElement Octet.comma .element

/-- What can remain of a document in a state of the framing, with the objects in it. -/
inductive Remains : Expect → List Object → Bytes → Prop where
  | done {a : Bytes} : Blanks a → Remains .trailing [] a
  | framing {x y : Expect} {b : UInt8} {os : List Object} {a p : Bytes} : Framing x b y →
      Blanks a → Remains y os p → Remains x os (a ++ b :: p)
  | object {x : Expect} {ms : Object} {os : List Object} {a p q : Bytes} :
      x = .firstElement ∨ x = .element → Blanks a → Written deepest (.value (.object ms)) p →
      Remains .nextElement os q → Remains x (ms :: os) (a ++ (p ++ q))

/-- The objects as the items of an array. -/
def itemsOf (os : List Object) : List Json := os.map Json.object

/-- What remains of an array of objects in a state of the framing: the whole document, the inside
of the array with its bracket and the blanks behind it, or only those blanks. -/
def Spans (x : Expect) (os : List Object) (p : Bytes) : Prop :=
  match x with
  | .opening => Document (deepest + 1) (.array (itemsOf os)) p
  | .firstElement => ∃ t b, ((os = [] ∧ Blanks t) ∨ Written deepest (.items (itemsOf os)) t) ∧
      Blanks b ∧ p = t ++ Octet.closeBracket :: b
  | .element => ∃ t b, Written deepest (.items (itemsOf os)) t ∧ Blanks b ∧
      p = t ++ Octet.closeBracket :: b
  | .nextElement => ∃ t b, ItemsTail deepest (itemsOf os) t ∧ Blanks b ∧
      p = t ++ Octet.closeBracket :: b
  | .trailing => os = [] ∧ Blanks p

/-- An octet of the framing in front of what remains of an array. -/
theorem Spans.framing {x y : Expect} {b : UInt8} {os : List Object} {a p : Bytes}
    (hx : Framing x b y) (ha : Blanks a) (h : Spans y os p) : Spans x os (a ++ b :: p) := by
  cases hx with
  | start =>
    obtain ⟨t, z, ht, hz, rfl⟩ := h
    refine ⟨a, Octet.openBracket :: (t ++ [Octet.closeBracket]), z, ha, ?_, hz, by simp⟩
    rcases ht with ⟨rfl, hblanks⟩ | hitems
    · exact .emptyArray hblanks
    · exact .array hitems
  | closeEmpty =>
    obtain ⟨rfl, hp⟩ := h
    exact ⟨a, p, .inl ⟨rfl, ha⟩, hp, rfl⟩
  | close =>
    obtain ⟨rfl, hp⟩ := h
    exact ⟨a, p, .inl ⟨rfl, ha⟩, hp, rfl⟩
  | separator =>
    obtain ⟨t, z, ht, hz, rfl⟩ := h
    exact ⟨a ++ Octet.comma :: t, z, .inr ⟨a, t, ha, rfl, ht⟩, hz, by simp⟩

/-- An object in front of what remains of an array. -/
theorem Spans.object {x : Expect} {ms : Object} {os : List Object} {a p q : Bytes}
    (hx : x = .firstElement ∨ x = .element) (ha : Blanks a)
    (hw : Written deepest (.value (.object ms)) p) (h : Spans .nextElement os q) :
    Spans x (ms :: os) (a ++ (p ++ q)) := by
  obtain ⟨t, z, ht, hz, rfl⟩ := h
  have hitems : Written deepest (.items (itemsOf (ms :: os))) (a ++ (p ++ t)) := ht.cons ha hw
  rcases hx with rfl | rfl
  · exact ⟨a ++ (p ++ t), z, .inr hitems, hz, by simp⟩
  · exact ⟨a ++ (p ++ t), z, hitems, hz, by simp⟩

theorem Remains.spans {x : Expect} {os : List Object} {p : Bytes} (h : Remains x os p) :
    Spans x os p := by
  induction h with
  | done ha => exact ⟨rfl, ha⟩
  | framing hx ha _ ih => exact ih.framing hx ha
  | object hx ha hw _ ih => exact ih.object hx ha hw

/-- Items that are objects, with the bracket and the blanks behind them. -/
theorem remains_of_items {os : List Object} {t b : Bytes}
    (h : Written deepest (.items (itemsOf os)) t) (hb : Blanks b) {x : Expect}
    (hx : x = .firstElement ∨ x = .element) : Remains x os (t ++ Octet.closeBracket :: b) := by
  induction os generalizing t x with
  | nil =>
    rw [itemsOf, List.map_nil] at h
    cases h
  | cons ms os ih =>
    rw [itemsOf, List.map_cons] at h
    generalize hjs : os.map Json.object = js at h
    cases h with
    | @lastItem _ _ a p e ha hw he =>
      obtain rfl := List.map_eq_nil_iff.1 hjs
      have hend : Remains .nextElement [] (e ++ Octet.closeBracket :: b) :=
        .framing .close he (.done hb)
      simpa using Remains.object hx ha hw hend
    | @item _ _ js a p e q ha hw he hq =>
      have hmore : Remains .nextElement os (e ++ Octet.comma :: (q ++ Octet.closeBracket :: b)) :=
        .framing .separator he (ih (by rwa [itemsOf, hjs]) (.inr rfl))
      simpa using Remains.object hx ha hw hmore

/-- An array of objects between blanks is what the framing starts with. -/
theorem remains_of_document {os : List Object} {d : Bytes}
    (h : Document (deepest + 1) (.array (itemsOf os)) d) : Remains .opening os d := by
  obtain ⟨a, p, b, ha, hw, hb, rfl⟩ := h
  have hopen {t : Bytes} (ht : Remains .firstElement os (t ++ Octet.closeBracket :: b)) :
      Remains .opening os (a ++ (Octet.openBracket :: (t ++ [Octet.closeBracket]) ++ b)) := by
    simpa using Remains.framing .start ha ht
  generalize hjs : itemsOf os = js at hw
  cases hw with
  | emptyArray ht =>
    obtain rfl := List.map_eq_nil_iff.1 hjs
    exact hopen (.framing .closeEmpty ht (.done hb))
  | array ht => exact hopen (remains_of_items (hjs ▸ ht) hb (.inl rfl))

namespace Reader

variable {r r' : Reader} {found : Option Object} {o : Object}

/-! ## What a step takes -/

theorem readElement_note_inv (h : readElement .note r none = .proceed r' found)
    (hr : r.source.rest.head? = some Octet.openBrace) :
    ∃ ms p, found = some (normalMembers ms) ∧ r'.expect = .nextElement ∧
      r.source.rest = p ++ r'.source.rest ∧ Written deepest (.value (.object ms)) p := by
  obtain ⟨t, ht⟩ := List.head?_eq_some_iff.1 hr
  unfold readElement at h
  split at h
  · next o c hrun =>
    cases h
    obtain ⟨ms, hmembers, rfl⟩ := Json.Decoder.map_eq_ok_iff.1 hrun
    obtain ⟨p, hp, hw⟩ := Json.membersAround_sound (Json.value_sound _) ht hmembers
    refine ⟨ms, p, rfl, rfl, ?_, hw⟩
    have hrest := (Cursor.rest_of_start_le (Cursor.le_of_lt (Json.Decoder.element.consumes hrun))).1
    rw [Source.rest_readThrough, ← hrest]
    exact hp.1
  · cases h

/-- A step takes blanks and one octet of the framing, or blanks and one object. -/
theorem step_note_proceed_inv (h : step .note r none = .proceed r' found) :
    (found = none ∧ ∃ b, Framing r.expect b r'.expect ∧
      r.source.cursor.skipBlanks.rest = b :: r'.source.rest) ∨
    ∃ ms p, found = some (normalMembers ms) ∧
      (r.expect = .firstElement ∨ r.expect = .element) ∧ r'.expect = .nextElement ∧
      r.source.cursor.skipBlanks.rest = p ++ r'.source.rest ∧
      Written deepest (.value (.object ms)) p := by
  obtain ⟨htok, hcur, -⟩ := r.source.nextToken_spec
  unfold step at h
  generalize r.source.nextToken = t at *
  obtain ⟨token, source⟩ := t
  dsimp only at htok hcur
  have hrest : source.rest = r.source.cursor.skipBlanks.rest := congrArg Cursor.rest hcur
  rw [← hrest] at htok ⊢
  rcases token with text | _ | b
  · cases h
  · dsimp only at h
    split at h <;> cases h
  · obtain ⟨t, ht⟩ := Source.exists_of_token_some htok.symm
    have hframe : ∀ next, Framing r.expect b next →
        Step.proceed (({ r with source } : Reader).takeFraming next) none = .proceed r' found →
        found = none ∧ ∃ b, Framing r.expect b r'.expect ∧ source.rest = b :: r'.source.rest := by
      intro next hnext e
      cases e
      refine ⟨rfl, b, hnext, ?_⟩
      simp [takeFraming, ht]
    have helem : b = Octet.openBrace → r.expect = .firstElement ∨ r.expect = .element →
        readElement .note { r with source } none = .proceed r' found →
        ∃ ms p, found = some (normalMembers ms) ∧
          (r.expect = .firstElement ∨ r.expect = .element) ∧ r'.expect = .nextElement ∧
          source.rest = p ++ r'.source.rest ∧ Written deepest (.value (.object ms)) p := by
      intro hb hx e
      obtain ⟨ms, p, hfound, hexpect, hp, hw⟩ := readElement_note_inv e (by simp [ht, hb])
      exact ⟨ms, p, hfound, hx, hexpect, hp, hw⟩
    dsimp only at h
    split at h
    · next hx =>
      split at h
      · next hb => exact .inl (hframe _ (hx ▸ hb ▸ .start) h)
      · cases h
    · next hx =>
      split at h
      · next hb => exact .inl (hframe _ (hx ▸ hb ▸ .closeEmpty) h)
      · split at h
        · next hb => exact .inr (helem hb (.inl hx) h)
        · cases h
    · next hx =>
      split at h
      · next hb => exact .inl (hframe _ (hx ▸ hb ▸ .close) h)
      · split at h
        · next hb => exact .inl (hframe _ (hx ▸ hb ▸ .separator) h)
        · cases h
    · next hx =>
      split at h
      · next hb => exact .inr (helem hb (.inr hx) h)
      · split at h <;> cases h
    · cases h

/-- A reader finishes where nothing but blanks may follow and nothing but blanks does. -/
theorem step_note_finish_inv (h : step .note r none = .finish r' found) :
    r.expect = .trailing ∧ Blanks r.source.rest := by
  have helem : ∀ q : Reader, readElement .note q none ≠ .finish r' found := by
    intro q e
    unfold readElement at e
    split at e <;> cases e
  obtain ⟨htok, -, -⟩ := r.source.nextToken_spec
  unfold step at h
  generalize r.source.nextToken = t at *
  obtain ⟨token, source⟩ := t
  dsimp only at htok
  rcases token with text | _ | b
  · cases h
  · dsimp only at h
    split at h
    · next hx =>
      have hnil := Source.nil_of_token_none htok.symm
      exact ⟨hx, Json.blanks_of_skipBlanks (c := r.source.cursor) hnil⟩
    · cases h
  · dsimp only at h
    split at h
    · split at h <;> cases h
    · split at h
      · cases h
      · split at h
        · exact absurd h (helem _)
        · cases h
    · split at h
      · cases h
      · split at h <;> cases h
    · split at h
      · exact absurd h (helem _)
      · split at h <;> cases h
    · cases h

/-- What a finished run has read is in the language of the framing. -/
theorem remains_of_delivery {os : List Object} (ha : r.Active)
    (h : r.delivery.1 = .ok .finished) (hos : r.delivery.2.2 = os) :
    ∃ raw, Remains r.expect raw r.source.rest ∧ os = raw.map normalMembers := by
  -- the blanks in front of the next token belong to what remains
  have hrest : ∀ r : Reader, ∃ a, Blanks a ∧
      r.source.rest = a ++ r.source.cursor.skipBlanks.rest := by
    intro r
    obtain ⟨a, hblanks, hta⟩ := r.source.cursor.exists_blanks
    exact ⟨a, hblanks, hta.1⟩
  induction r using step_induction generalizing os with
  | framing r r' hm ih =>
    obtain ⟨a, hblanks, hrest⟩ := hrest r
    rw [delivery_of_framing ha hm] at h hos
    obtain ⟨raw, hraw, hos'⟩ := ih (active_of_proceed ha hm) h hos
    rcases step_note_proceed_inv hm with ⟨-, b, hframe, hb⟩ | ⟨ms, p, hfound, -⟩
    · refine ⟨raw, ?_, hos'⟩
      rw [hrest, hb]
      exact .framing hframe hblanks hraw
    · cases hfound
  | object r r' o hm ih =>
    obtain ⟨a, hblanks, hrest⟩ := hrest r
    rw [delivery_of_object ha hm] at h hos
    obtain ⟨raw, hraw, hos'⟩ := ih (active_of_proceed ha hm) h rfl
    rcases step_note_proceed_inv hm with ⟨hfound, -⟩ | ⟨ms, p, hfound, hx, hx', hp, hw⟩
    · cases hfound
    · cases hfound
      refine ⟨ms :: raw, ?_, by rw [← hos, List.map_cons, hos']⟩
      rw [hrest, hp]
      exact .object hx hblanks hw (hx' ▸ hraw)
  | finish r r' found hm =>
    obtain ⟨hx, hb⟩ := step_note_finish_inv hm
    rw [delivery_of_finish ha hm] at hos
    refine ⟨[], ?_, by rw [← hos, List.map_nil]⟩
    rw [hx]
    exact .done hb
  | fail r e r' found hm =>
    rw [delivery_of_fail ha hm] at h
    cases h

/-! ## What a step can take -/

/-- The octet found and the source behind the blanks, where there is an octet. -/
theorem nextToken_of_cons {s : Source} {b : UInt8} {t : Bytes}
    (h : s.cursor.skipBlanks.rest = b :: t) :
    ∃ source, s.nextToken = (.ok (some b), source) ∧ source.rest = b :: t := by
  obtain ⟨htok, hcur, -⟩ := s.nextToken_spec
  have hrest : s.nextToken.2.rest = s.cursor.skipBlanks.rest := congrArg Cursor.rest hcur
  rw [h, Source.token] at htok
  exact ⟨s.nextToken.2, Prod.ext htok rfl, hrest.trans h⟩

theorem step_of_framing {y : Expect} {b : UInt8} {t : Bytes} (hx : Framing r.expect b y)
    (h : r.source.cursor.skipBlanks.rest = b :: t) :
    ∃ r', step .note r none = .proceed r' none ∧ r'.expect = y ∧ r'.source.rest = t := by
  obtain ⟨source, htok, hrest⟩ := nextToken_of_cons h
  refine ⟨({ r with source } : Reader).takeFraming y, ?_, rfl, ?_⟩
  · unfold step
    rw [htok]
    dsimp only
    generalize r.expect = x at hx ⊢
    cases hx <;> rfl
  · simp [takeFraming, hrest]

theorem step_of_object {ms : Object} {p q : Bytes}
    (hx : r.expect = .firstElement ∨ r.expect = .element)
    (hw : Written deepest (.value (.object ms)) p)
    (h : r.source.cursor.skipBlanks.rest = p ++ q) :
    ∃ r', step .note r none = .proceed r' (some (normalMembers ms)) ∧
      r'.expect = .nextElement ∧ r'.source.rest = q := by
  obtain ⟨t, rfl⟩ : ∃ t, p = Octet.openBrace :: t := by cases hw <;> exact ⟨_, rfl⟩
  obtain ⟨source, htok, hrest⟩ := nextToken_of_cons h
  have hrun : Json.Decoder.element.run (.start source.rest) =
      .ok (normalMembers ms, ⟨(Octet.openBrace :: t).length, q⟩) := by
    refine Json.Decoder.map_eq_ok_iff.2 ⟨ms, Json.membersAround_complete hw ⟨hrest, ?_⟩, rfl⟩
    simp [Cursor.start]
  have helem : readElement .note { r with source } none =
      .proceed ⟨source.readThrough (Octet.openBrace :: t).length, .nextElement, r.finished,
        r.failedAt⟩ (some (normalMembers ms)) := by
    unfold readElement
    rw [hrun]
    rfl
  refine ⟨⟨source.readThrough (Octet.openBrace :: t).length, .nextElement, r.finished, r.failedAt⟩,
    ?_, rfl, ?_⟩
  · unfold step
    rw [htok]
    rcases hx with hx | hx
    · rw [hx] at helem ⊢
      exact helem
    · rw [hx] at helem ⊢
      exact helem
  · simp [Source.rest_readThrough, hrest]

theorem step_of_done (hx : r.expect = .trailing) (hf : r.source.failure = none)
    (h : Blanks r.source.rest) : ∃ r', step .note r none = .finish r' none := by
  obtain ⟨htok, -, -⟩ := r.source.nextToken_spec
  have hnil : r.source.cursor.skipBlanks.rest = [] := Json.skipBlanks_of_blanks h
  rw [hnil, hf, Source.token] at htok
  refine ⟨{ r with source := r.source.nextToken.2 }, ?_⟩
  have htok' : r.source.nextToken = (.ok none, r.source.nextToken.2) := Prod.ext htok rfl
  unfold step
  rw [htok']
  dsimp only
  rw [hx]

theorem failure_of_proceed (hm : step .note r none = .proceed r' found)
    (hf : r.source.failure = none) : r'.source.failure = none := by
  exact (congrArg (fun c => c.2.2) (constants_of_proceed hm)).trans hf

/-- Whatever is in the language of the framing is read to its end. -/
theorem delivery_of_remains {raw : List Object} {x : Expect} {p : Bytes} (h : Remains x raw p)
    (ha : r.Active) (hf : r.source.failure = none) (hx : r.expect = x)
    (hp : r.source.rest = p) :
    r.delivery.1 = .ok .finished ∧ r.delivery.2.2 = raw.map normalMembers := by
  induction h generalizing r with
  | done hb =>
    obtain ⟨r', hm⟩ := step_of_done hx hf (hp ▸ hb)
    rw [delivery_of_finish ha hm]
    exact ⟨rfl, rfl⟩
  | @framing x y b os a p hframe hblanks _ ih =>
    have hb : Octet.isBlank b = false := by cases hframe <;> rfl
    have hskip := Cursor.rest_skipBlanks (c := r.source.cursor) hblanks hp hb
    obtain ⟨r', hm, hx', hp'⟩ := step_of_framing (hx ▸ hframe) hskip
    rw [delivery_of_framing ha hm]
    exact ih (active_of_proceed ha hm) (failure_of_proceed hm hf) hx' hp'
  | @object x ms os a p q hexpect hblanks hw _ ih =>
    obtain ⟨t, rfl⟩ : ∃ t, p = Octet.openBrace :: t := by cases hw <;> exact ⟨_, rfl⟩
    have hskip := Cursor.rest_skipBlanks (c := r.source.cursor) hblanks hp rfl
    obtain ⟨r', hm, hx', hp'⟩ := step_of_object (hx ▸ hexpect) hw hskip
    obtain ⟨hfinished, hos⟩ := ih (active_of_proceed ha hm) (failure_of_proceed hm hf) hx' hp'
    rw [delivery_of_object ha hm, List.map_cons, ← hos]
    exact ⟨hfinished, rfl⟩

/-- **What the reader accepts.** A run that never halts reads a document to its end if and only if
the document is an array of objects between blanks, and delivers the objects of that array. -/
theorem delivery_finished_iff {d : Bytes} {capacity : Nat} {os : List Object} :
    (({ source := .ofBytes d capacity } : Reader).delivery.1 = .ok .finished ∧
      ({ source := .ofBytes d capacity } : Reader).delivery.2.2 = os) ↔
    ∃ raw, Document (deepest + 1) (.array (itemsOf raw)) d ∧ os = raw.map normalMembers := by
  have ha : ({ source := .ofBytes d capacity } : Reader).Active := ⟨rfl, rfl⟩
  constructor
  · rintro ⟨hfinished, hos⟩
    obtain ⟨raw, hremains, hraw⟩ := remains_of_delivery ha hfinished hos
    exact ⟨raw, hremains.spans, hraw⟩
  · rintro ⟨raw, hdocument, rfl⟩
    exact delivery_of_remains (remains_of_document hdocument) ha rfl rfl rfl

end Reader

end IndexFeed.Database
