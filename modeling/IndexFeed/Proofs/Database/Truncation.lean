import Mathlib.Control.Monad.Basic
import IndexFeed.Proofs.Database.Horizon
import IndexFeed.Proofs.Json.Breaking

/-!
# Documents that break off

A source may break, and a document may have been cut.  Either way the reader comes to the end of its
octets in front of the end of the document.  What it has delivered by then are the objects whose
closing braces it has seen, and the error says that the octets have run out, unless an error in front
of the end has stopped the reader: that one it reports as it would with the whole document at hand.

`Reader.Severed` relates a reader to one whose text goes on.  `Cut` is what two such readers do in one
step (`Severed.step`), and `Ended` how their runs end (`Severed.ended`).  There is one blemish: a
document that is cut behind a numeral ends with a complaint about the numeral if it is out of range
without the digits behind the cut.
-/

set_option autoImplicit false

namespace IndexFeed.Database

open Json (Cursor Object Written EndsOutOfRange deepest normalMembers)
open Json.Cursor (Blanks)

/-! ## Where objects end -/

/-- The object is written in the text behind the cursor, with its closing brace at that offset. -/
def ClosesAt (c : Cursor) (o : Object) (brace : Nat) : Prop :=
  ∃ a ms t z, c.rest = a ++ (t ++ Octet.closeBrace :: z) ∧
    Written deepest (.value (.object ms)) (t ++ [Octet.closeBrace]) ∧ o = normalMembers ms ∧
    brace = c.index + (a ++ t).length

theorem ClosesAt.of_le {c d : Cursor} {o : Object} {brace : Nat} (h : ClosesAt d o brace)
    (hle : c ≤ d) : ClosesAt c o brace := by
  obtain ⟨s, hs⟩ := Json.Cursor.exists_append_of_le hle
  obtain ⟨a, ms, t, z, hrest, hw, ho, hbrace⟩ := h
  have hlength := Json.Cursor.index_add_length hle
  refine ⟨s ++ a, ms, t, z, by rw [hs, hrest, List.append_assoc], hw, ho, ?_⟩
  rw [hs, List.length_append] at hlength
  rw [hbrace]
  simp only [List.length_append] at hlength ⊢
  omega

namespace Reader

variable {m n : Nat} {r q r' q' : Reader} {found : Option Object} {o : Object}

/-- The objects that the reader delivers, each with the offset of its closing brace. -/
def closings (r : Reader) : List (Object × Nat) :=
  match _h : step .note r none with
  | .proceed r' none => closings r'
  | .proceed r' (some o) => (o, r'.offset - 1) :: closings r'
  | _ => []
termination_by r.source.rest.length
decreasing_by all_goals exact step_lt ‹_›

/-- The objects that the reader delivers whose closing braces are among the first `n` octets. -/
def closedWithin (r : Reader) (n : Nat) : List Object :=
  (r.closings.filter fun x => x.2 < n).map Prod.fst

theorem closings_of_framing (hm : step .note r none = .proceed r' none) :
    r.closings = r'.closings := by
  rw [closings]
  split <;> simp_all

theorem closings_of_object (hm : step .note r none = .proceed r' (some o)) :
    r.closings = (o, r'.offset - 1) :: r'.closings := by
  rw [closings]
  split <;> simp_all

theorem closings_of_stop (hm : ∀ r' found, step .note r none ≠ .proceed r' found) :
    r.closings = [] := by
  rw [closings]
  split <;> simp_all

/-- A step goes on in the text. -/
theorem cursor_le_of_proceed (hm : step .note r none = .proceed r' found) :
    r.source.cursor ≤ r'.source.cursor := by
  obtain ⟨source, hcur, hshape⟩ := r.step_shape
  have hle : r.source.cursor ≤ source.cursor := by
    rw [hcur]
    exact Cursor.le_skipBlanks _
  rw [hm] at hshape
  cases hshape with
  | framing next hb => exact Cursor.le_trans hle (Cursor.le_of_lt (Cursor.lt_advance_one hb))
  | @element ms p t hw hp =>
    rw [Source.cursor_readThrough]
    refine Cursor.le_trans hle (Cursor.le_advance ?_)
    rw [show source.cursor.rest = p ++ t from hp, List.length_append]
    exact Nat.le_add_right _ _

theorem closesAt_of_object (hm : step .note r none = .proceed r' (some o)) :
    ClosesAt r.source.cursor o (r'.offset - 1) := by
  obtain ⟨source, hcur, hshape⟩ := r.step_shape
  rw [hm] at hshape
  cases hshape with
  | @element ms p z hw hp =>
    obtain ⟨t, rfl⟩ : ∃ t, p = t ++ [Octet.closeBrace] := by
      cases hw with
      | @emptyObject _ a ha => exact ⟨Octet.openBrace :: a, rfl⟩
      | @object _ _ a ha => exact ⟨Octet.openBrace :: a, rfl⟩
    refine ClosesAt.of_le ⟨[], ms, t, z, ?_, hw, rfl, ?_⟩ (r.source.cursor.le_skipBlanks)
    · rw [← hcur]
      simpa [Source.cursor] using hp
    · rw [← hcur]
      simp [offset, offset_readThrough, Source.cursor]

/-- **Where the objects of a delivery end.** -/
theorem closings_spec (ha : r.Active) :
    r.closings.map Prod.fst = r.delivery.2.2 ∧
      ∀ x ∈ r.closings, ClosesAt r.source.cursor x.1 x.2 := by
  induction r using step_induction with
  | framing r r' hm ih =>
    obtain ⟨hmap, hcloses⟩ := ih (active_of_proceed ha hm)
    rw [closings_of_framing hm, delivery_of_framing ha hm]
    exact ⟨hmap, fun x hx => (hcloses x hx).of_le (cursor_le_of_proceed hm)⟩
  | object r r' o hm ih =>
    obtain ⟨hmap, hcloses⟩ := ih (active_of_proceed ha hm)
    rw [closings_of_object hm, delivery_of_object ha hm, List.map_cons, hmap]
    refine ⟨rfl, List.forall_mem_cons.2 ⟨closesAt_of_object hm, ?_⟩⟩
    intro x hx
    exact (hcloses x hx).of_le (cursor_le_of_proceed hm)
  | finish r r' found hm =>
    rw [closings_of_stop (by simp [hm]), delivery_of_finish ha hm]
    simp
  | fail r e r' found hm =>
    rw [closings_of_stop (by simp [hm]), delivery_of_fail ha hm]
    simp

/-! ## Objects that end in time -/

/-- Behind a step, the next token stands behind the blanks that were in front of it. -/
theorem skipBlanks_lt_of_proceed (hm : step .note r none = .proceed r' found) :
    r.source.cursor.skipBlanks.index < r'.offset ∧
      r'.offset ≤ r'.source.cursor.skipBlanks.index := by
  have hpast := r.le_offset_step
  rw [hm] at hpast
  exact ⟨hpast, Nat.le_add_right _ _⟩

theorem closedWithin_of_framing (hm : step .note r none = .proceed r' none) :
    r.closedWithin n = r'.closedWithin n := by
  rw [closedWithin, closings_of_framing hm, closedWithin]

theorem closedWithin_of_object (hm : step .note r none = .proceed r' (some o))
    (hn : r'.offset ≤ n) : r.closedWithin n = o :: r'.closedWithin n := by
  have hpast := (skipBlanks_lt_of_proceed hm).1
  have hlt : r'.offset - 1 < n := by omega
  rw [closedWithin, closings_of_object hm, List.filter_cons_of_pos (by simpa using hlt),
    List.map_cons, closedWithin]

/-- Closing braces stand behind the blanks. -/
theorem le_closing (r : Reader) : ∀ x ∈ r.closings, r.source.cursor.skipBlanks.index ≤ x.2 := by
  induction r using step_induction with
  | framing r r' hm ih =>
    obtain ⟨hlt, hle⟩ := skipBlanks_lt_of_proceed hm
    rw [closings_of_framing hm]
    intro x hx
    have := ih x hx
    omega
  | object r r' o hm ih =>
    obtain ⟨hlt, hle⟩ := skipBlanks_lt_of_proceed hm
    rw [closings_of_object hm, List.forall_mem_cons]
    refine ⟨Nat.le_sub_one_of_lt hlt, ?_⟩
    intro x hx
    have := ih x hx
    omega
  | finish r r' found hm | fail r e r' found hm =>
    rw [closings_of_stop (by simp [hm])]
    simp

theorem closedWithin_eq_nil (h : n ≤ r.source.cursor.skipBlanks.index) : r.closedWithin n = [] := by
  rw [closedWithin, List.map_eq_nil_iff, List.filter_eq_nil_iff]
  intro x hx
  have hx' := r.le_closing x hx
  simp only [decide_eq_true_eq]
  omega

/-- If the next step leads beyond the first `n` octets, no object ends among them. -/
theorem closedWithin_of_past
    (h : ∀ r' found, step .note r none = .proceed r' found → n < r'.offset) :
    r.closedWithin n = [] := by
  cases hm : step .note r none with
  | proceed r' found =>
    have hlt := h r' found hm
    have hblanks := (skipBlanks_lt_of_proceed hm).2
    have hlater : r'.closedWithin n = [] := closedWithin_eq_nil (by omega)
    cases found with
    | none => rw [closedWithin_of_framing hm, hlater]
    | some o =>
      have hnot : ¬ r'.offset - 1 < n := by omega
      rw [closedWithin, closings_of_object hm, List.filter_cons_of_neg (by simpa using hnot)]
      exact hlater
  | halt r' found => exact absurd hm (step_note_ne_halt r r' found)
  | finish r' found | fail e r' found =>
    rw [closedWithin, closings_of_stop (by simp [hm])]
    rfl

/-! ## Texts that go on -/

/-- The readers stand at one place, and the text of the second goes on with `more` where that of the
first one ends. -/
structure Severed (more : Bytes) (r q : Reader) : Prop where
  offset : q.offset = r.offset
  rest : q.source.rest = r.source.rest ++ more
  unbroken : q.source.failure = none
  expect : q.expect = r.expect
  finished : q.finished = r.finished
  failedAt : q.failedAt = r.failedAt

/-- The offset where the text of a reader ends. -/
def ending (r : Reader) : Nat := r.offset + r.source.rest.length

/-- What a reader says that has come to the end of its octets in front of the end of the document. -/
inductive BreaksOff (text : Bytes) (stop : Nat) : Option String → Error → Prop where
  | source {failure : String} : BreaksOff text stop (some failure) (.unreadable (.other failure))
  | early : BreaksOff text stop none (.endsEarly stop)
  /-- the text ends in a numeral that is out of range as it stands -/
  | outOfRange {start : Nat} {report : Json.Error} : EndsOutOfRange text →
      report.cause = .numberOutOfRange →
      BreaksOff text stop none (.malformed stop (.element start report))

/-- What the two readers do in one step: they go on together, both refuse what they find, or the first
one has come to the end of its octets, and then the second one's step, if it goes on, leads beyond it. -/
inductive Cut (more : Bytes) (r q : Reader) : Step (Option Object) → Step (Option Object) → Prop where
  | proceed {r' q' : Reader} {found : Option Object} : r'.Severed more q' →
      Cut more r q (.proceed r' found) (.proceed q' found)
  | refuse {k k' : Nat} {complaint : Complaint} {r' q' : Reader} :
      Cut more r q (.fail (.malformed k complaint) r' none) (.fail (.malformed k' complaint) q' none)
  | breakOff {e : Error} {r' : Reader} {step : Step (Option Object)} :
      BreaksOff r.source.rest r.ending r.source.failure e →
      (∀ q' found, step = .proceed q' found → r.ending < q'.offset) →
      Cut more r q (.fail e r' none) step
  | finish {r' : Reader} {step : Step (Option Object)} : r.source.failure = none →
      (∀ q' found, step = .proceed q' found → r.ending < q'.offset) →
      Cut more r q (.finish r' none) step

namespace Severed

variable {more : Bytes}

theorem active (h : r.Severed more q) (ha : r.Active) : q.Active :=
  ⟨h.finished.trans ha.1, h.failedAt.trans ha.2⟩

/-- Both readers take the same octets. -/
theorem readThrough (h : r.Severed more q) {n : Nat} (hn : n ≤ r.source.rest.length)
    (next : Expect) :
    ({ r with source := r.source.readThrough n, expect := next } : Reader).Severed more
      { q with source := q.source.readThrough n, expect := next } where
  offset := by
    simp only [Reader.offset, offset_readThrough]
    exact congrArg (· + n) h.offset
  rest := by
    simp only [Source.rest_readThrough, h.rest, List.drop_append_of_le_length hn]
  unbroken := (Source.failure_readThrough _ _).trans h.unbroken
  expect := rfl
  finished := h.finished
  failedAt := h.failedAt

theorem takeFraming (h : r.Severed more q) (hr : r.source.rest ≠ []) (next : Expect) :
    (r.takeFraming next).Severed more (q.takeFraming next) where
  offset := congrArg (· + 1) h.offset
  rest := by
    have hlength := List.length_pos_iff.2 hr
    simp only [Reader.takeFraming, Source.rest_consume, h.rest,
      List.drop_append_of_le_length hlength]
  unbroken := h.unbroken
  expect := rfl
  finished := h.finished
  failedAt := h.failedAt

end Severed

/-! ## Steps -/

theorem elementError_of_reachesEnd {source : Source} {failure : String} {f : Json.Fault}
    (hs : source.failure = some failure) (hf : f.reachesEnd = true) (start stop : Nat) :
    elementError source start stop f = .unreadable (.other failure) := by
  simp only [elementError, hs, hf]

/-- A fault that is raised in front of the end is reported as such, even if the source breaks. -/
theorem elementError_of_inside {source : Source} {text : Bytes} {f : Json.Fault}
    (hf : f.Inside text) (start stop : Nat) :
    elementError source start stop f =
      .malformed stop (.element start (f.report .stream source.rest)) := by
  have hearly := hf.cause
  unfold elementError
  rw [hf.reachesEnd]
  cases source.failure with
  | none => cases hcategory : f.cause.category <;> simp_all
  | some failure => cases hcategory : f.cause.category <;> simp_all

/-- What becomes of a fault at the end of the text. -/
theorem breaksOff_of_atEnd {f : Json.Fault} (hf : f.AtEnd r.source.rest) :
    BreaksOff r.source.rest r.ending r.source.failure
      (elementError r.source r.offset (r.source.readThrough (f.taken .stream)).offset f) := by
  have hstop : (r.source.readThrough (f.taken .stream)).offset = r.ending := by
    rw [offset_readThrough, hf.taken]
    rfl
  cases hfailure : r.source.failure with
  | some failure =>
    rw [elementError_of_reachesEnd hfailure hf.reachesEnd]
    exact .source
  | none =>
    rw [elementError_of_unbroken hfailure, hstop]
    rcases hf.cause with hearly | ⟨hcause, hrange⟩
    · rw [hearly]
      exact .early
    · rw [hcause]
      exact .outOfRange hrange hcause

/-- An element is read by both readers or refused by both, or the text breaks off in it. -/
theorem Severed.readElement {more : Bytes} (h : r.Severed more q)
    (hr : r.source.rest.head? = some Octet.openBrace) :
    Cut more r q (readElement .note r none) (readElement .note q none) := by
  obtain ⟨t, ht⟩ := List.head?_eq_some_iff.1 hr
  have hagree : (Cursor.start r.source.rest).Agrees r.source.rest.length (.start q.source.rest) := by
    refine ⟨rfl, ?_⟩
    simp [Cursor.start, h.rest]
  cases hrun : Json.Decoder.element.run (.start r.source.rest) with
  | ok result =>
    obtain ⟨o, c⟩ := result
    have hle := (Cursor.rest_of_start_le (Cursor.le_of_lt (Json.Decoder.element.consumes hrun))).2
    obtain ⟨c', hrun', hindex, -⟩ := Json.Decoder.element_exact ht hrun hagree hle
    rw [readElement_of_ok hrun, readElement_of_ok hrun', hindex]
    exact .proceed (h.readThrough hle .nextElement)
  | error f =>
    rw [readElement_of_error hrun]
    rcases Json.Decoder.element_atEnd_or_inside hrun with hend | hinside
    · refine .breakOff (breaksOff_of_atEnd hend) fun q' found hq => ?_
      cases hrun' : Json.Decoder.element.run (.start q.source.rest) with
      | error g =>
        rw [readElement_of_error hrun'] at hq
        cases hq
      | ok result =>
        obtain ⟨o, c⟩ := result
        rw [readElement_of_ok hrun'] at hq
        cases hq
        -- had the element ended in time, both readers would have read it
        have hlt : r.source.rest.length < c.index := by
          refine Nat.lt_of_not_le fun hle => ?_
          have hback : (Cursor.start q.source.rest).Agrees r.source.rest.length
              (.start r.source.rest) := ⟨rfl, hagree.2.symm⟩
          have ht' : (Cursor.start q.source.rest).rest = Octet.openBrace :: (t ++ more) := by
            show q.source.rest = Octet.openBrace :: (t ++ more)
            rw [h.rest, ht, List.cons_append]
          obtain ⟨d, hd, -⟩ := Json.Decoder.element_exact ht' hrun' hback hle
          rw [hrun] at hd
          cases hd
        show r.ending < (q.source.readThrough c.index).offset
        rw [offset_readThrough, show q.source.offset = r.offset from h.offset]
        exact Nat.add_lt_add_left hlt _
    · obtain ⟨g, hrun', hreport⟩ := Json.Decoder.element_error_append hrun hinside more
      rw [← h.rest] at hrun' hreport
      have hcause : g.cause = f.cause := congrArg Json.Error.cause hreport
      rw [readElement_of_error hrun', elementError_of_inside hinside,
        elementError_of_unbroken h.unbroken, hreport, hcause, h.offset]
      have hearly := hinside.cause
      cases hcategory : f.cause.category with
      | early => exact absurd hcategory hearly
      | malformed | misshapen => exact .refuse

theorem BreaksOff.of_le {c d : Cursor} {stop : Nat} {failure : Option String} {e : Error}
    (h : BreaksOff d.rest stop failure e) (hle : c ≤ d) : BreaksOff c.rest stop failure e := by
  cases h with
  | source => exact .source
  | early => exact .early
  | outOfRange hrange hcause => exact .outOfRange (hrange.of_le hle) hcause

theorem ending_of_le (h : r.source.cursor ≤ r'.source.cursor) : r'.ending = r.ending :=
  Json.Cursor.index_add_length h

/-- A step of readers that have gone on is a step of readers in front of them. -/
theorem Cut.of_le {more : Bytes} {a b : Step (Option Object)} (h : Cut more r' q' a b)
    (hle : r.source.cursor ≤ r'.source.cursor) (hf : r'.source.failure = r.source.failure) :
    Cut more r q a b := by
  have hending := ending_of_le hle
  cases h with
  | proceed h => exact .proceed h
  | refuse => exact .refuse
  | breakOff hbreaks hpast =>
    rw [hending] at hbreaks hpast
    rw [hf] at hbreaks
    exact .breakOff (BreaksOff.of_le hbreaks hle) hpast
  | finish hnone hpast =>
    rw [hending] at hpast
    exact .finish (hf ▸ hnone) hpast

/-- Behind the blanks, if there is more than blanks in the text that breaks off. -/
theorem Severed.behindBlanks {more : Bytes} {b : UInt8} {t : Bytes} (h : r.Severed more q)
    (hrest : r.source.cursor.skipBlanks.rest = b :: t) :
    ({ r with source := r.source.nextToken.2 } : Reader).Severed more
      { q with source := q.source.nextToken.2 } := by
  obtain ⟨-, hcur, hfail⟩ := r.source.nextToken_spec
  obtain ⟨-, hcur', hfail'⟩ := q.source.nextToken_spec
  obtain ⟨a, ha, hta⟩ := r.source.cursor.exists_blanks
  have htakes : q.source.cursor.Takes a
      ⟨r.source.cursor.skipBlanks.index, r.source.cursor.skipBlanks.rest ++ more⟩ := by
    refine ⟨?_, ?_⟩
    · rw [← List.append_assoc, ← hta.1]
      exact h.rest
    · rw [hta.2]
      exact congrArg (· + a.length) h.offset.symm
  have hblanks := Cursor.skipBlanks_of_takes ha htakes
    (Cursor.solid_of_cons (congrArg (· ++ more) hrest) (Cursor.isBlank_of_skipBlanks hrest))
  rw [hblanks] at hcur'
  refine ⟨?_, ?_, hfail'.trans h.unbroken, h.expect, h.finished, h.failedAt⟩
  · exact (congrArg Cursor.index hcur').trans (congrArg Cursor.index hcur).symm
  · exact (congrArg Cursor.rest hcur').trans (congrArg (· ++ more) (congrArg Cursor.rest hcur).symm)

/-- Where the first text has nothing but blanks left, the second reader's next step leads beyond it. -/
theorem Severed.past_blanks {more : Bytes} (h : r.Severed more q)
    (hnil : r.source.cursor.skipBlanks.rest = []) (hq : step .note q none = .proceed q' found) :
    r.ending < q'.offset := by
  have hpast := q.le_offset_step
  rw [hq] at hpast
  refine Nat.lt_of_le_of_lt ?_ hpast
  have hblanks : ∀ b ∈ r.source.rest, Octet.isBlank b = true :=
    Json.blanks_of_skipBlanks (c := r.source.cursor) hnil
  have hoffset : q.source.offset = r.source.offset := h.offset
  simp only [Cursor.skipBlanks, Source.cursor, h.rest, hoffset,
    List.takeWhile_append_of_pos hblanks, List.length_append]
  exact Nat.add_le_add_left (Nat.le_add_right _ _) _

/-- Both readers have found one octet. -/
theorem Severed.atToken {more : Bytes} {b : UInt8} {t : Bytes} (h : r.Severed more q)
    (hr : r.source.rest = b :: t) :
    Cut more r q (Reader.atToken r (.ok (some b))) (Reader.atToken q (.ok (some b))) := by
  dsimp only [Reader.atToken]
  rw [h.expect, h.offset]
  cases hmove : move r.expect b with
  | take next =>
    have hne : r.source.rest ≠ [] := by simp [hr]
    exact .proceed (h.takeFraming hne next)
  | element =>
    refine h.readElement ?_
    rw [hr, eq_of_move hmove, List.head?_cons]
  | refuse complaint => exact .refuse

/-- **One step.** -/
theorem Severed.step {more : Bytes} (h : r.Severed more q) :
    Cut more r q (step .note r none) (step .note q none) := by
  obtain ⟨htok, hcur, hfail⟩ := r.source.nextToken_spec
  cases hrest : r.source.cursor.skipBlanks.rest with
  | nil =>
    have hpast : ∀ q' found, Reader.step .note q none = .proceed q' found → r.ending < q'.offset :=
      fun q' found hq => h.past_blanks hrest hq
    have hoffset : ({ r with source := r.source.nextToken.2 } : Reader).offset = r.ending := by
      have hlength := Json.Cursor.index_add_length r.source.cursor.le_skipBlanks
      rw [hrest, List.length_nil, Nat.add_zero] at hlength
      exact (congrArg Cursor.index hcur).trans hlength
    rw [step_eq_atToken r, htok, hrest]
    cases hfailure : r.source.failure with
    | some failure =>
      refine .breakOff ?_ hpast
      rw [hfailure]
      exact .source
    | none =>
      have hearly : BreaksOff r.source.rest r.ending r.source.failure
          (.endsEarly ({ r with source := r.source.nextToken.2 } : Reader).offset) := by
        rw [hfailure, hoffset]
        exact .early
      dsimp only [Source.token, atToken]
      cases r.expect with
      | trailing => exact .finish hfailure hpast
      | opening | firstElement | element | nextElement => exact .breakOff hearly hpast
  | cons b t =>
    have hbehind := h.behindBlanks hrest
    obtain ⟨htok', hcur', -⟩ := q.source.nextToken_spec
    have hnext : r.source.nextToken.2.rest = b :: t := (congrArg Cursor.rest hcur).trans hrest
    have hnext' : q.source.cursor.skipBlanks.rest = b :: (t ++ more) := by
      refine (congrArg Cursor.rest hcur').symm.trans (hbehind.rest.trans ?_)
      rw [hnext, List.cons_append]
    rw [hrest] at htok
    rw [hnext'] at htok'
    rw [step_eq_atToken r, step_eq_atToken q, htok, htok']
    refine Cut.of_le (hbehind.atToken hnext) ?_ hfail
    rw [hcur]
    exact r.source.cursor.le_skipBlanks

/-! ## Runs -/

/-- How the runs of the two readers end: both with what they have refused, or the first one where its
octets have run out.  If it takes these for a whole document, the second one finds that its document
goes on. -/
inductive Ended (more : Bytes) (r q : Reader) : Prop where
  | refused {k k' : Nat} {complaint : Complaint} : r.delivery.1 = .error (.malformed k complaint) →
      q.delivery.1 = .error (.malformed k' complaint) → Ended more r q
  | brokeOff {e : Error} : r.delivery.1 = .error e →
      BreaksOff r.source.rest r.ending r.source.failure e → Ended more r q
  | finished : r.source.failure = none → (q.delivery.1 = .ok .finished → Blanks more) →
      Ended more r q

theorem Ended.of_le {more : Bytes} (h : Ended more r' q') (hr : r.delivery.1 = r'.delivery.1)
    (hq : q.delivery.1 = q'.delivery.1) (hle : r.source.cursor ≤ r'.source.cursor)
    (hf : r'.source.failure = r.source.failure) : Ended more r q := by
  cases h with
  | refused hr' hq' => exact .refused (hr.trans hr') (hq.trans hq')
  | brokeOff hr' hbreaks =>
    rw [ending_of_le hle, hf] at hbreaks
    exact .brokeOff (hr.trans hr') (BreaksOff.of_le hbreaks hle)
  | finished hnone hblanks => exact .finished (hf ▸ hnone) fun hfinished => hblanks (hq ▸ hfinished)

/-- Where nothing but blanks may follow and the document has been read to its end, nothing else does. -/
theorem blanks_of_trailing (ha : q.Active) (he : q.expect = .trailing)
    (h : q.delivery.1 = .ok .finished) : Blanks q.source.rest := by
  obtain ⟨raw, hremains, -⟩ := remains_of_delivery ha h rfl
  rw [he] at hremains
  exact hremains.spans.2

/-- **The runs of two readers whose texts part.** The first one delivers the objects of the second one
that end in its text. -/
theorem Severed.ended {more : Bytes} (ha : r.Active) (h : r.Severed more q) :
    r.delivery.2.2 = q.closedWithin r.ending ∧ Ended more r q := by
  induction hn : r.source.rest.length using Nat.strongRecOn generalizing r q with
  | ind n ih =>
    have ha' := h.active ha
    have hcut := h.step
    generalize hr : Reader.step .note r none = a at hcut
    generalize hq : Reader.step .note q none = b at hcut
    cases hcut with
    | @proceed r' q' found h' =>
      obtain ⟨hobjects, hended⟩ := ih _ (hn ▸ step_lt hr) (active_of_proceed ha hr) h' rfl
      have hle := cursor_le_of_proceed hr
      have hf : r'.source.failure = r.source.failure :=
        congrArg (fun c => c.2.2) (constants_of_proceed hr)
      rw [ending_of_le hle] at hobjects
      cases found with
      | none =>
        have hd := delivery_of_framing ha hr
        have hd' := delivery_of_framing ha' hq
        refine ⟨?_, hended.of_le (by rw [hd]) (by rw [hd']) hle hf⟩
        rw [hd, closedWithin_of_framing hq, hobjects]
      | some o =>
        have hd := delivery_of_object ha hr
        have hd' := delivery_of_object ha' hq
        refine ⟨?_, hended.of_le (by rw [hd]) (by rw [hd']) hle hf⟩
        have hintime : q'.offset ≤ r.ending := by
          rw [h'.offset, ← ending_of_le hle]
          exact Nat.le_add_right _ _
        rw [hd, closedWithin_of_object hq hintime, hobjects]
    | refuse =>
      have hnone : q.closings = [] := closings_of_stop (by simp [hq])
      refine ⟨?_, .refused (congrArg Prod.fst (delivery_of_fail ha hr))
        (congrArg Prod.fst (delivery_of_fail ha' hq))⟩
      rw [delivery_of_fail ha hr, closedWithin, hnone]
      rfl
    | breakOff hbreaks hpast =>
      refine ⟨?_, .brokeOff (congrArg Prod.fst (delivery_of_fail ha hr)) hbreaks⟩
      rw [delivery_of_fail ha hr, closedWithin_of_past fun q' found e => hpast q' found (hq ▸ e)]
    | finish hnone hpast =>
      refine ⟨?_, .finished hnone fun hfinished => ?_⟩
      · rw [delivery_of_finish ha hr,
          closedWithin_of_past fun q' found e => hpast q' found (hq ▸ e)]
      · have he := (step_note_finish_inv hr).1
        have hblanks := blanks_of_trailing ha' (h.expect.trans he) hfinished
        rw [h.rest] at hblanks
        exact fun b hb => hblanks b (List.mem_append_right _ hb)

/-- A run that fails leaves a reader that has failed. -/
theorem failedAt_of_error {e : Error} (ha : r.Active) (h : r.delivery.1 = .error e) :
    r.delivery.2.1.failedAt = some r.delivery.2.1.offset := by
  induction r using step_induction with
  | framing r r' hm ih =>
    rw [delivery_of_framing ha hm] at h ⊢
    exact ih (active_of_proceed ha hm) h
  | object r r' o hm ih =>
    rw [delivery_of_object ha hm] at h ⊢
    exact ih (active_of_proceed ha hm) h
  | finish r r' found hm =>
    rw [delivery_of_finish ha hm] at h
    cases h
  | fail r e' r' found hm =>
    rw [delivery_of_fail ha hm]
    rfl

theorem run_of_failedAt {σ : Type} {k : Nat} (hr : r.failedAt = some k) (h : Handler σ) (s : σ) :
    r.run h s = (.error (.malformed k .stopped), r, s) := by
  rw [run, hr]

/-! ## Sources that break and documents that are cut -/

theorem severed_breakingAt {d : Bytes} {limit : Nat} (h : limit ≤ d.length) (failure : String)
    (capacity : Nat) :
    ({ source := .breakingAt d limit failure capacity } : Reader).Severed (d.drop limit)
      { source := .ofBytes d capacity } := by
  simp only [Source.breakingAt, if_pos h]
  exact ⟨rfl, (List.take_append_drop limit d).symm, rfl, rfl, rfl, rfl⟩

/-- **A source that breaks loses nothing that was complete.** Take any document, any buffer and any
place where the source breaks, which may be its end.

* The run that never halts delivers the objects of the intact run whose closing braces stand in front
  of that place (`closings_spec` says where they stand), and it ends with the failure of the source or
  with the complaint that the intact run ends with.
* Behind that error the reader hands over nothing, whoever asks, and says that it has stopped.
* A source that would break behind the document makes no difference. -/
theorem run_breaking_source (d : Bytes) (limit : Nat) (failure : String) (capacity : Nat) :
    let intact : Reader := { source := .ofBytes d capacity }
    let broken : Reader := { source := .breakingAt d limit failure capacity }
    let whole := intact.run .keepAll []
    let cut := broken.run .keepAll []
    (limit ≤ d.length →
      cut.2.2 = intact.closedWithin limit ∧
      (cut.1 = .error (.unreadable (.other failure)) ∨
        ∃ k k' complaint, cut.1 = .error (.malformed k complaint) ∧
          whole.1 = .error (.malformed k' complaint)) ∧
      ∀ {σ : Type} (h : Handler σ) (s : σ),
        cut.2.1.run h s = (.error (.malformed cut.2.1.offset .stopped), cut.2.1, s)) ∧
    (d.length < limit → ∀ {σ : Type} (h : Handler σ) (s : σ), broken.run h s = intact.run h s) := by
  intro intact broken whole cut
  refine ⟨fun hle => ?_, fun hlt => ?_⟩
  · have ha : broken.Active := ⟨rfl, rfl⟩
    obtain ⟨hobjects, hended⟩ := (severed_breakingAt hle failure capacity).ended ha
    have hsource : broken.source = { Source.ofBytes (d.take limit) capacity with
        failure := some failure } := if_pos hle
    have hending : broken.ending = limit := by
      rw [ending, offset, hsource]
      simp [Source.ofBytes, hle]
    have hfailure : broken.source.failure = some failure := by rw [hsource]
    have hanswer : cut.1 = .error (.unreadable (.other failure)) ∨
        ∃ k k' complaint, cut.1 = .error (.malformed k complaint) ∧
          whole.1 = .error (.malformed k' complaint) := by
      cases hended with
      | refused hcut hwhole => exact .inr ⟨_, _, _, hcut, hwhole⟩
      | brokeOff hcut hbreaks =>
        rw [show ({ source := .breakingAt d limit failure capacity } : Reader).source.failure =
          some failure from hfailure] at hbreaks
        cases hbreaks
        exact .inl hcut
      | finished hnone =>
        rw [hfailure] at hnone
        cases hnone
    refine ⟨hending ▸ hobjects, hanswer, fun h s => ?_⟩
    obtain ⟨e, he⟩ : ∃ e, cut.1 = .error e := by
      rcases hanswer with h | ⟨k, k', complaint, h, -⟩
      · exact ⟨_, h⟩
      · exact ⟨_, h⟩
    exact run_of_failedAt (failedAt_of_error ha he) h s
  · intro σ h s
    have hsame : broken = intact := by
      show ({ source := .breakingAt d limit failure capacity } : Reader) = _
      rw [Source.breakingAt, if_neg (Nat.not_le_of_lt hlt)]
    rw [hsame]

/-- A source that breaks behind the comma after the first of two objects. -/
theorem run_broken_behind_comma :
    let d : Bytes := [0x5b, 0x7b, 0x7d, 0x2c, 0x7b, 0x7d, 0x5d]
    let cut := Reader.run .keepAll { source := .breakingAt d 4 "gone" 2 } []
    cut.2.2 = [[]] ∧ cut.1 = .error (.unreadable (.other "gone")) ∧
      ∀ {σ : Type} (h : Handler σ) (s : σ),
        cut.2.1.run h s = (.error (.malformed cut.2.1.offset .stopped), cut.2.1, s) := by
  intro d cut
  obtain ⟨hobjects, -, hstopped⟩ := (run_breaking_source d 4 "gone" 2).1 (by decide)
  exact ⟨hobjects.trans (by decide +kernel), by decide +kernel, hstopped⟩

/-- **A document that is cut ends early.** Cut any document that has been read to its end in front of
the bracket that closes its array, which is its last one.  The run over the part in front of the cut
delivers the objects whose closing braces stand there, and it ends with an early end at the cut.  The
only other answer is a complaint at the cut about a numeral that is out of range, where that part ends
in such a numeral. -/
theorem run_truncated {p u : Bytes} (hu : Octet.closeBracket ∈ u) (capacity capacity' : Nat)
    (h : (Reader.run .keepAll { source := .ofBytes (p ++ u) capacity' } []).1 = .ok .finished) :
    let intact : Reader := { source := .ofBytes (p ++ u) capacity' }
    let cut := Reader.run .keepAll { source := .ofBytes p capacity } []
    cut.2.2 = intact.closedWithin p.length ∧
      (cut.1 = .error (.endsEarly p.length) ∨
        EndsOutOfRange p ∧ ∃ start report, report.cause = .numberOutOfRange ∧
          cut.1 = .error (.malformed p.length (.element start report))) := by
  intro intact cut
  have ha : ({ source := .ofBytes p capacity } : Reader).Active := ⟨rfl, rfl⟩
  have hsevered : ({ source := .ofBytes p capacity } : Reader).Severed u intact :=
    ⟨rfl, rfl, rfl, rfl, rfl, rfl⟩
  have hending : ({ source := .ofBytes p capacity } : Reader).ending = p.length := Nat.zero_add _
  obtain ⟨hobjects, hended⟩ := hsevered.ended ha
  rw [hending] at hobjects
  refine ⟨hobjects, ?_⟩
  cases hended with
  | refused hcut hwhole =>
    rw [show intact.delivery.1 = .ok .finished from h] at hwhole
    cases hwhole
  | brokeOff hcut hbreaks =>
    rw [hending] at hbreaks
    cases hbreaks with
    | early => exact .inl hcut
    | outOfRange hrange hcause => exact .inr ⟨hrange, _, _, hcause, hcut⟩
  | finished hnone hblanks => exact absurd (hblanks h Octet.closeBracket hu) (by decide)

/-- A document that is cut in its second object. -/
theorem run_truncated_inside_object :
    let p : Bytes := [0x5b, 0x7b, 0x7d, 0x2c, 0x7b]
    let cut := Reader.run .keepAll { source := .ofBytes p 2 } []
    cut.2.2 = [[]] ∧ (cut.1 = .error (.endsEarly 5) ∨ EndsOutOfRange p ∧
      ∃ start report, report.cause = .numberOutOfRange ∧
        cut.1 = .error (.malformed 5 (.element start report))) := by
  intro p cut
  obtain ⟨hobjects, hanswer⟩ := run_truncated (p := p) (u := [0x7d, 0x5d]) (by decide) 2 3
    (by decide +kernel)
  exact ⟨hobjects.trans (by decide +kernel), hanswer⟩

/-- The other answer comes about: a numeral of 310 digits is in range with its exponent, and out of
range where the document is cut in front of the exponent. -/
theorem truncated_not_early :
    ¬ ∀ (p u : Bytes) (capacity : Nat), Octet.closeBracket ∈ u →
      (Reader.run .keepAll { source := .ofBytes (p ++ u) capacity } []).1 = .ok .finished →
      (Reader.run .keepAll { source := .ofBytes p capacity } []).1 =
        .error (.endsEarly p.length) := by
  intro hearly
  have hanswer := hearly
    ([0x5b, 0x7b, 0x22, 0x61, 0x22, 0x3a, 0x31] ++ List.replicate 309 0x30)
    [0x65, 0x2d, 0x31, 0x7d, 0x5d] 64 (by decide) (by decide +kernel)
  exact absurd hanswer (by decide +kernel)

end Reader

end IndexFeed.Database
