import IndexFeed.Database.Reader

/-!
# Where a reader stands

What a reader does depends on its place: the octets still to come, how many came before them, how
its source ends and what the framing allows.  How much of the text a buffer holds is no part of
that, and neither are the blanks in front of the next token, which every step takes first.

`Reader.view` is the place with those blanks taken.  Readers with one view take the same steps
(`step_congr`) and run alike (`run_congr`); looking for the end of the root array keeps the view
(`view_nextClosesRoot`).
-/

set_option autoImplicit false

namespace IndexFeed.Database

open Json (Cursor)

/-! ## Sources -/

namespace Source

/-- The place of a source in its text. -/
def cursor (s : Source) : Cursor := ⟨s.offset, s.rest⟩

/-- What a look at the octets that are left finds, behind the blanks. -/
def token (failure : Option String) : Bytes → Except String (Option UInt8)
  | [] =>
    match failure with
    | some text => .error text
    | none => .ok none
  | b :: _ => .ok (some b)

theorem exists_of_token_some {failure : Option String} {rest : Bytes} {b : UInt8}
    (h : token failure rest = .ok (some b)) : ∃ r, rest = b :: r := by
  unfold token at h
  split at h
  · split at h <;> cases h
  · next r =>
    cases h
    exact ⟨r, rfl⟩

theorem nil_of_token_none {failure : Option String} {rest : Bytes}
    (h : token failure rest = .ok none) : rest = [] := by
  unfold token at h
  split at h
  · rfl
  · cases h

@[simp] theorem cursor_fill (s : Source) : s.fill.cursor = s.cursor := by
  unfold fill
  split <;> rfl

@[simp] theorem failure_fill (s : Source) : s.fill.failure = s.failure := by
  unfold fill
  split <;> rfl

@[simp] theorem cursor_consume (s : Source) (n : Nat) :
    (s.consume n).cursor = s.cursor.advance n := rfl

@[simp] theorem failure_consume (s : Source) (n : Nat) : (s.consume n).failure = s.failure := rfl

theorem cursor_readThrough (s : Source) (n : Nat) :
    (s.readThrough n).cursor = s.cursor.advance n := by
  induction n generalizing s with
  | zero => rfl
  | succ n ih =>
    rw [readThrough, ih, cursor_consume, cursor_fill, Cursor.advance_advance, Nat.add_comm]

theorem failure_readThrough (s : Source) (n : Nat) :
    (s.readThrough n).failure = s.failure := by
  induction n generalizing s with
  | zero => rfl
  | succ n ih => rw [readThrough, ih, failure_consume, failure_fill]

/-- A look for the next token takes the blanks and nothing else, however the buffer is filled on
the way. -/
theorem nextToken_spec (s : Source) :
    s.nextToken.1 = token s.failure s.cursor.skipBlanks.rest ∧
      s.nextToken.2.cursor = s.cursor.skipBlanks ∧ s.nextToken.2.failure = s.failure := by
  fun_induction nextToken s with
  | case1 s s' hr text hf | case2 s s' hr hf =>
    have hrest : s.rest = [] := (rest_fill s).symm.trans hr
    have hfail : s.failure = s'.failure := (failure_fill s).symm
    have hcur : s'.cursor = s.cursor := cursor_fill s
    simp only [Cursor.skipBlanks, cursor, hrest, List.takeWhile_nil, List.dropWhile_nil,
      token, hfail, hf, true_and, and_true] at hcur ⊢
    simpa using hcur
  | case3 s s' b r hr hb ih =>
    have hrest : s.rest = b :: r := (rest_fill s).symm.trans hr
    have hcur : s'.cursor = s.cursor := cursor_fill s
    have hfail : s'.failure = s.failure := failure_fill s
    have hskip : (s'.consume 1).cursor.skipBlanks = s.cursor.skipBlanks := by
      rw [cursor_consume, hcur]
      simp only [Cursor.skipBlanks, Cursor.advance, cursor, hrest, List.drop_succ_cons,
        List.drop_zero, List.takeWhile_cons, List.dropWhile_cons, hb, if_true, List.length_cons,
        Cursor.mk.injEq, and_true]
      omega
    rw [hskip, failure_consume, hfail] at ih
    exact ih
  | case4 s s' b r hr hb =>
    have hrest : s.rest = b :: r := (rest_fill s).symm.trans hr
    have hcur : s'.cursor = s.cursor := cursor_fill s
    have hfail : s'.failure = s.failure := failure_fill s
    have hskip : s.cursor.skipBlanks = s.cursor := by
      simp [Cursor.skipBlanks, cursor, hrest, hb]
    refine ⟨?_, hcur.trans hskip.symm, hfail⟩
    rw [hskip]
    simp [cursor, hrest, token]

end Source

/-! ## Readers -/

namespace Reader

variable {σ : Type}

/-- Where a reader stands, apart from what its buffer holds. -/
structure Place where
  cursor : Cursor
  /-- how the source breaks behind the last octet, if it does -/
  failure : Option String
  expect : Expect
  finished : Bool
  failedAt : Option Nat
  deriving DecidableEq

/-- The place of a reader. -/
def place (r : Reader) : Place :=
  ⟨r.source.cursor, r.source.failure, r.expect, r.finished, r.failedAt⟩

/-- The place of a reader behind the blanks. -/
def view (r : Reader) : Place := { r.place with cursor := r.source.cursor.skipBlanks }

/-- A step with the place of its reader instead of the reader. -/
inductive Pace (σ : Type) where
  | proceed (p : Place) (s : σ)
  | halt (p : Place) (s : σ)
  | finish (p : Place) (s : σ)
  | fail (e : Error) (p : Place) (s : σ)

/-- What a step comes to, apart from what the buffer holds. -/
def Step.pace : Step σ → Pace σ
  | .proceed r s => .proceed r.place s
  | .halt r s => .halt r.place s
  | .finish r s => .finish r.place s
  | .fail e r s => .fail e r.place s

theorem view_eq_of_place_eq {r q : Reader} (h : r.place = q.place) : r.view = q.view := by
  have hc : r.source.cursor = q.source.cursor := congrArg Place.cursor h
  rw [view, view, h, hc]

theorem offset_eq_of_place_eq {r q : Reader} (h : r.place = q.place) : r.offset = q.offset :=
  congrArg (fun p : Place => p.cursor.index) h

/-- The element at the opening brace is read alike from equal places. -/
theorem readElement_congr (h : Handler σ) {r q : Reader} (e : r.place = q.place) (s : σ) :
    (readElement h r s).pace = (readElement h q s).pace := by
  obtain ⟨source, expect, finished, failedAt⟩ := r
  obtain ⟨source', expect', finished', failedAt'⟩ := q
  simp only [place, Place.mk.injEq] at e
  obtain ⟨hc, hf, rfl, rfl, rfl⟩ := e
  have hr : source.rest = source'.rest := congrArg Cursor.rest hc
  have ho : source.offset = source'.offset := congrArg Cursor.index hc
  have hthrough : ∀ n, (source.readThrough n).cursor = (source'.readThrough n).cursor := by
    intro n
    rw [Source.cursor_readThrough, Source.cursor_readThrough, hc]
  have hoff : ∀ n, (source.readThrough n).offset = (source'.readThrough n).offset := fun n =>
    congrArg Cursor.index (hthrough n)
  unfold readElement
  simp only [hr]
  split
  · next o c hd =>
    split <;> simp only [Step.pace, place, hthrough, Source.failure_readThrough, hf]
  · next f hd =>
    simp only [Step.pace, place, elementError, offset, hthrough, hoff, hr, ho,
      Source.failure_readThrough, hf]

/-- Taking an octet of the framing leads from equal places to equal places. -/
theorem takeFraming_congr {r q : Reader} (e : r.place = q.place) (next : Expect) :
    (r.takeFraming next).place = (q.takeFraming next).place := by
  simp only [place, Place.mk.injEq] at e
  obtain ⟨hc, hf, -, hfin, hfat⟩ := e
  simp only [place, takeFraming, Source.cursor_consume, Source.failure_consume, hc, hf, hfin, hfat]

/-- Readers with one view take the same step. -/
theorem step_congr (h : Handler σ) {r q : Reader} (e : r.view = q.view) (s : σ) :
    (step h r s).pace = (step h q s).pace := by
  obtain ⟨source, expect, finished, failedAt⟩ := r
  obtain ⟨source', expect', finished', failedAt'⟩ := q
  simp only [view, place, Place.mk.injEq] at e
  obtain ⟨hc, hf, rfl, rfl, rfl⟩ := e
  obtain ⟨htok, hcur, hfail⟩ := source.nextToken_spec
  obtain ⟨htok', hcur', hfail'⟩ := source'.nextToken_spec
  unfold step
  generalize source.nextToken = t at *
  generalize source'.nextToken = t' at *
  obtain ⟨token, behind⟩ := t
  obtain ⟨token', behind'⟩ := t'
  dsimp only at htok htok' hcur hcur' hfail hfail' ⊢
  obtain rfl : token = token' := by rw [htok, htok', hc, hf]
  -- behind the blanks the two readers stand at one place, from which the step is the same
  have hplace : (⟨behind, expect, finished, failedAt⟩ : Reader).place =
      (⟨behind', expect, finished, failedAt⟩ : Reader).place := by
    simp only [place, hcur, hcur', hfail, hfail', hc, hf]
  have hoff := offset_eq_of_place_eq hplace
  have helem := readElement_congr h hplace s
  have hframe := takeFraming_congr hplace
  rcases token with text | _ | b
  · simp only [Step.pace, hplace]
  · cases expect <;> simp only [Step.pace, hplace, hoff]
  · cases expect with
    | opening =>
      dsimp only
      split
      · simp only [Step.pace, hframe]
      · simp only [Step.pace, hplace, hoff]
    | firstElement =>
      dsimp only
      split
      · simp only [Step.pace, hframe]
      · split
        · exact helem
        · simp only [Step.pace, hplace, hoff]
    | nextElement =>
      dsimp only
      split
      · simp only [Step.pace, hframe]
      · split <;> simp only [Step.pace, hplace, hoff, hframe]
    | element =>
      dsimp only
      split
      · exact helem
      · split <;> simp only [Step.pace, hplace, hoff]
    | trailing => simp only [Step.pace, hplace, hoff]

/-! ## Runs -/

theorem runSteps_of_proceed {h : Handler σ} {r r' : Reader} {s s' : σ}
    (e : step h r s = .proceed r' s') : runSteps h r s = runSteps h r' s' := by
  rw [runSteps]
  split <;> simp_all

theorem runSteps_of_halt {h : Handler σ} {r r' : Reader} {s s' : σ}
    (e : step h r s = .halt r' s') : runSteps h r s = (.ok .halted, r', s') := by
  rw [runSteps]
  split <;> simp_all

theorem runSteps_of_finish {h : Handler σ} {r r' : Reader} {s s' : σ}
    (e : step h r s = .finish r' s') :
    runSteps h r s = (.ok .finished, { r' with finished := true }, s') := by
  rw [runSteps]
  split <;> simp_all

theorem runSteps_of_fail {h : Handler σ} {r r' : Reader} {s s' : σ} {err : Error}
    (e : step h r s = .fail err r' s') :
    runSteps h r s = (.error err, { r' with failedAt := some r'.offset }, s') := by
  rw [runSteps]
  split <;> simp_all

/-- Two runs that come to the same: one outcome, one state of the handler, one place. -/
def Agrees (a b : Except Error Outcome × Reader × σ) : Prop :=
  a.1 = b.1 ∧ a.2.1.place = b.2.1.place ∧ a.2.2 = b.2.2

theorem runSteps_congr (h : Handler σ) {r q : Reader} (e : r.view = q.view) (s : σ) :
    Agrees (runSteps h r s) (runSteps h q s) := by
  fun_induction runSteps h r s generalizing q with
  | case1 r s r₁ s₁ hs ih =>
    have hp := step_congr h e s
    cases hq : step h q s with
    | proceed q₁ t₁ =>
      rw [hs, hq, Step.pace, Step.pace, Pace.proceed.injEq] at hp
      obtain ⟨hp, rfl⟩ := hp
      rw [runSteps_of_proceed hq]
      exact ih (view_eq_of_place_eq hp)
    | halt | finish | fail => rw [hs, hq] at hp; cases hp
  | case2 r s r₁ s₁ hs =>
    have hp := step_congr h e s
    cases hq : step h q s with
    | halt q₁ t₁ =>
      rw [hs, hq, Step.pace, Step.pace, Pace.halt.injEq] at hp
      obtain ⟨hp, rfl⟩ := hp
      rw [runSteps_of_halt hq]
      exact ⟨rfl, hp, rfl⟩
    | proceed | finish | fail => rw [hs, hq] at hp; cases hp
  | case3 r s r₁ s₁ hs =>
    have hp := step_congr h e s
    cases hq : step h q s with
    | finish q₁ t₁ =>
      rw [hs, hq, Step.pace, Step.pace, Pace.finish.injEq] at hp
      obtain ⟨hp, rfl⟩ := hp
      rw [runSteps_of_finish hq]
      exact ⟨rfl, congrArg (fun p : Place => { p with finished := true }) hp, rfl⟩
    | proceed | halt | fail => rw [hs, hq] at hp; cases hp
  | case4 r s err r₁ s₁ hs =>
    have hp := step_congr h e s
    cases hq : step h q s with
    | fail err' q₁ t₁ =>
      rw [hs, hq, Step.pace, Step.pace, Pace.fail.injEq] at hp
      obtain ⟨rfl, hp, rfl⟩ := hp
      rw [runSteps_of_fail hq, offset_eq_of_place_eq hp]
      exact ⟨rfl, congrArg (fun p : Place => { p with failedAt := some q₁.offset }) hp, rfl⟩
    | proceed | halt | finish => rw [hs, hq] at hp; cases hp

/-- Readers with one view run alike. -/
theorem run_congr (h : Handler σ) {r q : Reader} (e : r.view = q.view) (s : σ) :
    (r.run h s).1 = (q.run h s).1 ∧ (r.run h s).2.1.view = (q.run h s).2.1.view ∧
      (r.run h s).2.2 = (q.run h s).2.2 := by
  have hfin : r.finished = q.finished := congrArg Place.finished e
  have hfat : r.failedAt = q.failedAt := congrArg Place.failedAt e
  unfold run
  rw [hfin, hfat]
  split
  · exact ⟨rfl, e, rfl⟩
  · split
    · exact ⟨rfl, e, rfl⟩
    · obtain ⟨hx, hp, hs⟩ := runSteps_congr h e s
      exact ⟨hx, view_eq_of_place_eq hp, hs⟩

/-! ## Looking for the end of the root array -/

/-- Neither an error nor the end of the document has stopped the reader. -/
def Active (r : Reader) : Prop := r.finished = false ∧ r.failedAt = none

theorem active_of_view_eq {r q : Reader} (e : q.view = r.view) (ha : r.Active) : q.Active :=
  ⟨(congrArg Place.finished e).trans ha.1, (congrArg Place.failedAt e).trans ha.2⟩

/-- What a look at the next token says about the end of the root array. -/
def closing : Except String (Option UInt8) → Except Error Bool
  | .error text => .error (.unreadable (.other text))
  | .ok token => .ok (token == some Octet.closeBracket)

/-- A look for the end of the root array says no without looking, or looks at the next token where
the array may close. -/
theorem nextClosesRoot_cases (r : Reader) :
    r.nextClosesRoot = (.ok false, r) ∨
      r.Active ∧ (r.expect = .firstElement ∨ r.expect = .nextElement) ∧
        r.nextClosesRoot =
          (closing r.source.nextToken.1, { r with source := r.source.nextToken.2 }) := by
  unfold nextClosesRoot
  split
  · exact .inl rfl
  · next hstop =>
    have ha : r.Active := by simpa [Active] using hstop
    split
    · next he =>
      refine .inr ⟨ha, .inl he, ?_⟩
      split <;> next ht => rw [ht]; rfl
    · next he =>
      refine .inr ⟨ha, .inr he, ?_⟩
      split <;> next ht => rw [ht]; rfl
    · exact .inl rfl

/-- A look for the end of the root array takes only blanks. -/
theorem view_nextClosesRoot (r : Reader) : r.nextClosesRoot.2.view = r.view := by
  obtain ⟨-, hcur, hfail⟩ := r.source.nextToken_spec
  rcases r.nextClosesRoot_cases with h | ⟨-, -, h⟩
  · rw [h]
  · rw [h]
    simp only [view, place, hcur, hfail, Cursor.skipBlanks_skipBlanks]

theorem length_nextClosesRoot_le (r : Reader) :
    r.nextClosesRoot.2.source.rest.length ≤ r.source.rest.length := by
  rcases r.nextClosesRoot_cases with h | ⟨-, -, h⟩
  · exact Nat.le_of_eq (by rw [h])
  · rw [h]
    exact Source.nextToken_le (s := r.source) rfl

/-- A source that does not break has an answer to every look. -/
theorem nextClosesRoot_ne_error {r : Reader} (hf : r.source.failure = none) (e : Error) :
    r.nextClosesRoot.1 ≠ .error e := by
  obtain ⟨htok, -, -⟩ := r.source.nextToken_spec
  rcases r.nextClosesRoot_cases with h | ⟨-, -, h⟩
  · simp [h]
  · rw [h, htok, hf]
    cases r.source.cursor.skipBlanks.rest <;> simp [Source.token, closing]

end Reader

end IndexFeed.Database
