import IndexFeed.Proofs.Database.Framing
import IndexFeed.Proofs.Database.Resumption
import IndexFeed.Proofs.Json.Unread

/-!
# What a run has seen

A run that halts has seen the octets that it has taken and no others, and one that fails at most one
more.  So on a text that agrees as far as that it comes to the same: it hands over the same objects and
ends in the same way at the same place.

`Reader.Alike` relates readers of two such texts.  A step keeps the relation (`step_alike`), so a run
does (`run_alike`) and a series of runs (`series_alike`).
-/

set_option autoImplicit false

namespace IndexFeed.Database

variable {σ : Type}

open Json (Cursor Object Written deepest normalMembers)

namespace Reader

/-- The readers stand at one place of texts that agree in their first `m` octets. -/
structure Alike (m : Nat) (r q : Reader) : Prop where
  cursor : r.source.cursor.Agrees m q.source.cursor
  unbroken : r.source.failure = none
  unbroken' : q.source.failure = none
  expect : q.expect = r.expect
  finished : q.finished = r.finished
  failedAt : q.failedAt = r.failedAt

variable {m : Nat} {r q r' : Reader} {found : Option Object}

theorem Alike.offset (h : r.Alike m q) : q.offset = r.offset := h.cursor.1

theorem Alike.readThrough (h : r.Alike m q) (n : Nat) :
    ({ r with source := r.source.readThrough n } : Reader).Alike m
      { q with source := q.source.readThrough n } where
  cursor := by
    simp only [Source.cursor_readThrough]
    exact h.cursor.advance n
  unbroken := (Source.failure_readThrough _ _).trans h.unbroken
  unbroken' := (Source.failure_readThrough _ _).trans h.unbroken'
  expect := h.expect
  finished := h.finished
  failedAt := h.failedAt

theorem Alike.expecting (h : r.Alike m q) (next : Expect) :
    ({ r with expect := next } : Reader).Alike m { q with expect := next } :=
  { h with expect := rfl }

theorem Alike.takeFraming (h : r.Alike m q) (next : Expect) :
    (r.takeFraming next).Alike m (q.takeFraming next) where
  cursor := h.cursor.advance 1
  unbroken := h.unbroken
  unbroken' := h.unbroken'
  expect := rfl
  finished := h.finished
  failedAt := h.failedAt

/-! ## Tokens -/

/-- What the framing makes of an octet. -/
inductive Move where
  | take (next : Expect)
  | element
  | refuse (complaint : Complaint)

/-- What the framing makes of the octet behind the blanks. -/
def move (expect : Expect) (b : UInt8) : Move :=
  match expect with
  | .opening => if b = Octet.openBracket then .take .firstElement else .refuse .notAnArray
  | .firstElement =>
    if b = Octet.closeBracket then .take .trailing
    else if b = Octet.openBrace then .element
    else .refuse .notAnObject
  | .nextElement =>
    if b = Octet.closeBracket then .take .trailing
    else if b = Octet.comma then .take .element
    else .refuse (.unexpected b .separator)
  | .element =>
    if b = Octet.openBrace then .element
    else if b = Octet.closeBracket then .refuse (.unexpected b .object)
    else .refuse .notAnObject
  | .trailing => .refuse (.unexpected b .ending)

/-- A step behind the blanks, where that token has been found. -/
def atToken (r : Reader) : Except String (Option UInt8) → Step (Option Object)
  | .error text => .fail (.unreadable (.other text)) r none
  | .ok none =>
    match r.expect with
    | .trailing => .finish r none
    | _ => .fail (.endsEarly r.offset) r none
  | .ok (some b) =>
    match move r.expect b with
    | .take next => .proceed (r.takeFraming next) none
    | .element => readElement .note r none
    | .refuse complaint => .fail (.malformed r.offset complaint) r none

theorem step_eq_atToken (r : Reader) : step .note r none =
    atToken { r with source := r.source.nextToken.2 } r.source.nextToken.1 := by
  obtain ⟨source, expect, finished, failedAt⟩ := r
  unfold step
  generalize source.nextToken = t
  obtain ⟨token, source⟩ := t
  rcases token with text | _ | b
  · rfl
  · cases expect <;> rfl
  · dsimp only [atToken]
    cases expect with
    | opening =>
      by_cases hopen : b = Octet.openBracket
      · simp only [move, if_pos hopen]
      · simp only [move, if_neg hopen]
    | firstElement =>
      by_cases hclose : b = Octet.closeBracket
      · simp only [move, if_pos hclose]
      · by_cases hbrace : b = Octet.openBrace
        · simp only [move, if_neg hclose, if_pos hbrace]
        · simp only [move, if_neg hclose, if_neg hbrace]
    | nextElement =>
      by_cases hclose : b = Octet.closeBracket
      · simp only [move, if_pos hclose]
      · by_cases hcomma : b = Octet.comma
        · simp only [move, if_neg hclose, if_pos hcomma]
        · simp only [move, if_neg hclose, if_neg hcomma]
    | element =>
      by_cases hbrace : b = Octet.openBrace
      · simp only [move, if_pos hbrace]
      · by_cases hclose : b = Octet.closeBracket
        · simp only [move, if_neg hbrace, if_pos hclose]
        · simp only [move, if_neg hbrace, if_neg hclose]
    | trailing => rfl

/-- Elements begin with a brace. -/
theorem eq_of_move {x : Expect} {b : UInt8} (h : move x b = .element) : b = Octet.openBrace := by
  unfold move at h
  split at h
  · split at h <;> cases h
  · split at h
    · cases h
    · split at h
      · assumption
      · cases h
  · split at h
    · cases h
    · split at h <;> cases h
  · split at h
    · assumption
    · split at h <;> cases h
  · cases h

/-! ## Steps -/

/-- If the first step has seen no more than `m` octets, the second comes to the same.  A step that
finds the end of the document has seen all of it. -/
def Step.Follows (m : Nat) : Step σ → Step σ → Prop
  | .proceed r s, o => r.offset ≤ m → ∃ q, o = .proceed q s ∧ r.Alike m q
  | .halt r s, o => r.offset ≤ m → ∃ q, o = .halt q s ∧ r.Alike m q
  | .fail e r s, o => r.offset < m → ∃ q, o = .fail e q s ∧ r.Alike m q
  | .finish .., _ => True

/-- The elements that start here are in texts that agree, too. -/
theorem Alike.start (h : r.Alike m q) :
    (Cursor.start r.source.rest).Agrees (m - r.offset) (.start q.source.rest) := ⟨rfl, h.cursor.2⟩

theorem elementError_of_unbroken {source : Source} (h : source.failure = none) (start stop : Nat)
    (f : Json.Fault) : elementError source start stop f =
      match f.cause.category with
      | .early => .endsEarly stop
      | _ => .malformed stop (.element start (f.report .stream source.rest)) := by
  cases hcategory : f.cause.category <;> simp only [elementError, h, hcategory]

theorem offset_readThrough (s : Source) (n : Nat) : (s.readThrough n).offset = s.offset + n :=
  congrArg Cursor.index (s.cursor_readThrough n)

theorem readElement_of_ok {o : Object} {c : Cursor}
    (h : Json.Decoder.element.run (.start r.source.rest) = .ok (o, c)) :
    readElement .note r none =
      .proceed { r with source := r.source.readThrough c.index, expect := .nextElement } (some o) := by
  rw [readElement, h]
  rfl

theorem readElement_of_error {f : Json.Fault}
    (h : Json.Decoder.element.run (.start r.source.rest) = .error f) :
    readElement .note r none =
      .fail (elementError r.source r.offset (r.source.readThrough (f.taken .stream)).offset f)
        { r with source := r.source.readThrough (f.taken .stream) } none := by
  rw [readElement, h]

theorem readElement_alike (h : r.Alike m q)
    (hr : r.source.rest.head? = some Octet.openBrace) :
    (readElement .note r none).Follows m (readElement .note q none) := by
  obtain ⟨t, ht⟩ := List.head?_eq_some_iff.1 hr
  cases hrun : Json.Decoder.element.run (.start r.source.rest) with
  | ok result =>
    obtain ⟨o, c⟩ := result
    rw [readElement_of_ok hrun]
    intro hm
    have hc : c.index ≤ m - r.offset := by
      have hle : (r.source.readThrough c.index).offset ≤ m := hm
      rw [offset_readThrough] at hle
      exact Nat.le_sub_of_add_le' hle
    obtain ⟨c', hrun', hindex, -⟩ := Json.Decoder.element_exact ht hrun h.start hc
    refine ⟨{ q with source := q.source.readThrough c.index, expect := .nextElement }, ?_,
      (h.readThrough c.index).expecting .nextElement⟩
    rw [readElement_of_ok hrun', hindex]
  | error f =>
    rw [readElement_of_error hrun]
    intro hm
    have hseen : f.reach ≤ m - r.offset := by
      have hle := f.reach_le_taken
      have hlt : (r.source.readThrough (f.taken .stream)).offset < m := hm
      rw [offset_readThrough] at hlt
      unfold offset
      omega
    have hlocal := Json.Decoder.local_element (.start r.source.rest)
    have halike := hlocal.alike h.start (by rw [hrun]; exact hseen)
    rw [hrun] at halike
    obtain ⟨g, hrun', hfg⟩ := halike.error
    have htaken := hfg.taken hseen
    have hreport : g.report .stream q.source.rest = f.report .stream r.source.rest :=
      hfg.report hseen (hlocal.placed f hrun) h.start.2
    refine ⟨_, ?_, h.readThrough (f.taken .stream)⟩
    rw [readElement_of_error hrun', htaken, elementError_of_unbroken h.unbroken, elementError_of_unbroken h.unbroken',
      hfg.cause, hreport, offset_readThrough, offset_readThrough]
    rw [show q.source.offset = r.source.offset from h.offset, h.offset]

/-- What a step can come to for a reader behind the blanks, which it has taken. -/
inductive Step.Shape (z : Reader) : Step (Option Object) → Prop where
  | framing {b : UInt8} {t : Bytes} (next : Expect) : z.source.rest = b :: t →
      Shape z (.proceed (z.takeFraming next) none)
  | element {ms : Object} {p t : Bytes} : Written deepest (.value (.object ms)) p →
      z.source.rest = p ++ t →
      Shape z (.proceed { z with
        source := z.source.readThrough p.length, expect := .nextElement } (some (normalMembers ms)))
  | finish : z.source.rest = [] → Shape z (.finish z none)
  | fail {e : Error} (n : Nat) : (∀ k complaint, e = .malformed k complaint → k = z.offset + n) →
      Shape z (.fail e { z with source := z.source.readThrough n } none)

theorem readElement_shape {z : Reader} (hz : z.source.rest.head? = some Octet.openBrace) :
    Step.Shape z (readElement .note z none) := by
  obtain ⟨t, ht⟩ := List.head?_eq_some_iff.1 hz
  unfold readElement
  split
  · next o c hrun =>
    obtain ⟨ms, hmembers, rfl⟩ := Json.Decoder.map_eq_ok_iff.1 hrun
    obtain ⟨p, hp, hw⟩ := Json.membersAround_sound (Json.value_sound _) ht hmembers
    have hindex : c.index = p.length := hp.2.trans (Nat.zero_add _)
    dsimp only
    rw [hindex]
    exact .element hw hp.1
  · next f hrun =>
    refine .fail (f.taken .stream) fun k complaint e => ?_
    refine Eq.trans ?_ (offset_readThrough z.source (f.taken .stream))
    unfold elementError at e
    split at e
    · cases e
    · split at e
      · cases e
      · cases e
        rfl

theorem step_shape (r : Reader) :
    ∃ source : Source, source.cursor = r.source.cursor.skipBlanks ∧
      Step.Shape { r with source } (step .note r none) := by
  obtain ⟨htok, hcur, -⟩ := r.source.nextToken_spec
  have hrest : r.source.nextToken.2.rest = r.source.cursor.skipBlanks.rest :=
    congrArg Cursor.rest hcur
  rw [← hrest] at htok
  refine ⟨r.source.nextToken.2, hcur, ?_⟩
  rw [step_eq_atToken]
  generalize r.source.nextToken.1 = token at htok
  generalize r.source.nextToken.2 = source at htok
  rcases token with text | _ | b
  · exact .fail 0 fun _ _ e => by cases e
  · dsimp only [atToken]
    split
    · exact .finish (Source.nil_of_token_none htok.symm)
    · exact .fail 0 fun _ _ e => by cases e
  · obtain ⟨t, ht⟩ := Source.exists_of_token_some htok.symm
    dsimp only [atToken]
    cases hmove : move r.expect b with
    | take next => exact .framing next ht
    | element =>
      refine readElement_shape ?_
      rw [ht, eq_of_move hmove]
      rfl
    | refuse complaint =>
      refine .fail 0 fun k c e => ?_
      cases e
      rfl

theorem token_none (rest : Bytes) : Source.token none rest = .ok rest.head? := by
  cases rest <;> rfl

/-- A step takes the blanks, and more if it does not fail. -/
theorem le_offset_step (r : Reader) :
    match step .note r none with
    | .proceed r' _ => r.source.cursor.skipBlanks.index < r'.offset
    | .fail _ r' _ => r.source.cursor.skipBlanks.index ≤ r'.offset
    | _ => True := by
  obtain ⟨source, hcur, hshape⟩ := r.step_shape
  rw [← hcur]
  generalize step .note r none = o at hshape
  cases hshape with
  | framing next hb => exact Nat.lt_succ_self _
  | element hw hp =>
    refine Nat.lt_of_lt_of_eq ?_ (offset_readThrough source _).symm
    refine Nat.lt_add_of_pos_right ?_
    cases hw <;> exact Nat.succ_pos _
  | finish hnil => trivial
  | fail n he => exact Nat.le_trans (Nat.le_add_right _ n) (Nat.le_of_eq (offset_readThrough ..).symm)

/-- Readers that have found the same token take the same step. -/
theorem atToken_alike (h : r.Alike m q) {token : Except String (Option UInt8)}
    (htok : token = .ok r.source.rest.head?) : (atToken r token).Follows m (atToken q token) := by
  have hfail : ∀ {e e' : Error}, e' = e →
      (Step.fail e r (none : Option Object)).Follows m (.fail e' q none) := by
    rintro e _ rfl _
    exact ⟨q, rfl, h⟩
  rcases token with text | _ | b
  · exact hfail rfl
  · dsimp only [atToken]
    rw [h.expect, h.offset]
    cases r.expect with
    | trailing => trivial
    | opening | firstElement | element | nextElement => exact hfail rfl
  · dsimp only [atToken]
    rw [h.expect, h.offset]
    cases hmove : move r.expect b with
    | take next => exact fun _ => ⟨_, rfl, h.takeFraming next⟩
    | element =>
      refine readElement_alike h ?_
      rw [← eq_of_move hmove]
      exact (Except.ok.inj htok).symm
    | refuse complaint => exact hfail rfl

/-- Readers of texts that agree as far as a step has seen take the same step. -/
theorem step_note_alike (h : r.Alike m q) :
    (step .note r none).Follows m (step .note q none) := by
  by_cases hseen : r.source.cursor.skipBlanks.index < m
  · -- behind the blanks the two readers stand in front of the same octet
    obtain ⟨htok, hcur, hfail⟩ := r.source.nextToken_spec
    obtain ⟨htok', hcur', hfail'⟩ := q.source.nextToken_spec
    have hblanks := h.cursor.skipBlanks hseen
    have hrest : r.source.nextToken.2.rest = r.source.cursor.skipBlanks.rest :=
      congrArg Cursor.rest hcur
    rw [h.unbroken, token_none] at htok
    rw [h.unbroken', token_none, hblanks.head? hseen, ← htok] at htok'
    have halike : ({ r with source := r.source.nextToken.2 } : Reader).Alike m
        { q with source := q.source.nextToken.2 } :=
      ⟨by rw [hcur, hcur']; exact hblanks, hfail.trans h.unbroken, hfail'.trans h.unbroken',
        h.expect, h.finished, h.failedAt⟩
    rw [step_eq_atToken, step_eq_atToken, htok']
    refine atToken_alike halike ?_
    rw [htok, ← hrest]
  · have hpast := r.le_offset_step
    cases hstep : step .note r none with
    | proceed r' found =>
      rw [hstep] at hpast
      exact fun hm => absurd (Nat.lt_of_lt_of_le hpast hm) hseen
    | fail e r' found =>
      rw [hstep] at hpast
      exact fun hm => absurd (Nat.lt_of_le_of_lt hpast hm) hseen
    | halt r' found => exact absurd hstep (step_note_ne_halt r r' found)
    | finish r' found => trivial

theorem Step.Follows.under {o o' : Step (Option Object)} (ho : o.Follows m o') (h : Handler σ)
    (s : σ) : (o.under h s).Follows m (o'.under h s) := by
  match o with
  | .proceed r none =>
    intro hm
    obtain ⟨q, rfl, hq⟩ := ho hm
    exact ⟨q, rfl, hq⟩
  | .proceed r (some object) =>
    cases hmore : (h s object).2 with
    | true =>
      rw [Step.under, if_pos hmore]
      intro hm
      obtain ⟨q, rfl, hq⟩ := ho hm
      exact ⟨q, by rw [Step.under, if_pos hmore], hq⟩
    | false =>
      rw [Step.under, if_neg (by simp [hmore])]
      intro hm
      obtain ⟨q, rfl, hq⟩ := ho hm
      exact ⟨q, by rw [Step.under, if_neg (by simp [hmore])], hq⟩
  | .halt r found =>
    intro hm
    obtain ⟨q, rfl, hq⟩ := ho hm
    exact ⟨q, rfl, hq⟩
  | .finish r found => trivial
  | .fail e r found =>
    intro hm
    obtain ⟨q, rfl, hq⟩ := ho hm
    exact ⟨q, rfl, hq⟩

theorem step_alike (hrq : r.Alike m q) (h : Handler σ) (s : σ) :
    (step h r s).Follows m (step h q s) := by
  rw [step_eq_under, step_eq_under h q]
  exact (step_note_alike hrq).under h s

/-! ## Runs -/

/-- The octets that a reader has seen: those that it has taken, and one more if an error stopped it. -/
def seen (r : Reader) : Nat :=
  match r.failedAt with
  | none => r.offset
  | some _ => r.offset + 1

theorem seen_of_active (ha : r.Active) : r.seen = r.offset := by
  rw [seen, ha.2]

theorem offset_le_seen (r : Reader) : r.offset ≤ r.seen := by
  unfold seen
  split
  · exact Nat.le_refl _
  · exact Nat.le_succ _

/-- If the first run has not come to the end of its document and has seen no more than `m` octets, the
second comes to the same. -/
def Follows (m : Nat) (x y : Except Error Outcome × Reader × σ) : Prop :=
  x.2.1.finished = false → x.2.1.seen ≤ m → ∃ q, y = (x.1, q, x.2.2) ∧ x.2.1.Alike m q

theorem reader_under (o : Step (Option Object)) (h : Handler σ) (s : σ) :
    (o.under h s).reader = o.reader := by
  match o with
  | .proceed r none => rfl
  | .proceed r (some object) =>
    rw [Step.under]
    split
    · rfl
    · rfl
  | .halt r _ => rfl
  | .finish r _ => rfl
  | .fail e r _ => rfl

theorem le_offset_reader (h : Handler σ) (r : Reader) (s : σ) :
    r.offset ≤ (step h r s).reader.offset := by
  have hblanks : r.offset ≤ r.source.cursor.skipBlanks.index := Nat.le_add_right _ _
  obtain ⟨source, hcur, hshape⟩ := r.step_shape
  rw [step_eq_under, reader_under]
  rw [← hcur] at hblanks
  generalize step .note r none = o at hshape
  cases hshape with
  | framing next hb => exact Nat.le_succ_of_le hblanks
  | element hw hp =>
    exact Nat.le_trans hblanks (Nat.le_trans (Nat.le_add_right _ _)
      (Nat.le_of_eq (offset_readThrough ..).symm))
  | finish hnil => exact hblanks
  | fail n he =>
    exact Nat.le_trans hblanks (Nat.le_trans (Nat.le_add_right _ n)
      (Nat.le_of_eq (offset_readThrough ..).symm))

theorem le_offset_runSteps (h : Handler σ) (r : Reader) (s : σ) :
    r.offset ≤ (runSteps h r s).2.1.offset := by
  fun_induction runSteps h r s with
  | case1 r s r' s' hs ih =>
    have hstep := le_offset_reader h r s
    rw [hs] at hstep
    exact Nat.le_trans hstep ih
  | case2 r s r' s' hs | case3 r s r' s' hs | case4 r s e r' s' hs =>
    have hstep := le_offset_reader h r s
    rw [hs] at hstep
    exact hstep

theorem runSteps_alike (h : Handler σ) (hrq : r.Alike m q) (s : σ) :
    Follows m (runSteps h r s) (runSteps h q s) := by
  fun_induction runSteps h r s generalizing q with
  | case1 r s r' s' hs ih =>
    intro hx hm
    have hstep := step_alike hrq h s
    have hle := le_offset_runSteps h r' s'
    rw [hs] at hstep
    obtain ⟨q', hq, hrq'⟩ := hstep (Nat.le_trans hle (Nat.le_trans (offset_le_seen _) hm))
    rw [runSteps_of_proceed hq]
    exact ih hrq' hx hm
  | case2 r s r' s' hs =>
    intro _ hm
    have hstep := step_alike hrq h s
    rw [hs] at hstep
    obtain ⟨q', hq, hrq'⟩ := hstep (Nat.le_trans (offset_le_seen _) hm)
    exact ⟨q', runSteps_of_halt hq, hrq'⟩
  | case3 r s r' s' hs =>
    intro hx
    cases hx
  | case4 r s e r' s' hs =>
    intro _ hm
    have hstep := step_alike hrq h s
    rw [hs] at hstep
    obtain ⟨q', hq, hrq'⟩ := hstep hm
    refine ⟨_, runSteps_of_fail hq, { hrq' with failedAt := ?_ }⟩
    exact congrArg some hrq'.offset

theorem run_alike (h : Handler σ) (hrq : r.Alike m q) (s : σ) :
    Follows m (r.run h s) (q.run h s) := by
  cases hfailed : r.failedAt with
  | some k =>
    have hrun {z : Reader} (hz : z.failedAt = some k) :
        z.run h s = (.error (.malformed k .stopped), z, s) := by rw [run, hz]
    rw [hrun hfailed, hrun (hrq.failedAt.trans hfailed)]
    exact fun _ _ => ⟨q, rfl, hrq⟩
  | none =>
    cases hfinished : r.finished with
    | true =>
      have hrun : r.run h s = (.ok .finished, r, s) := by simp [run, hfailed, hfinished]
      rw [hrun]
      intro hx
      rw [hfinished] at hx
      cases hx
    | false =>
      rw [run_of_active ⟨hfinished, hfailed⟩,
        run_of_active ⟨hrq.finished.trans hfinished, hrq.failedAt.trans hfailed⟩]
      exact runSteps_alike h hrq s

end Reader

end IndexFeed.Database
