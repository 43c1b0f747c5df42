import IndexFeed.Proofs.Database.Exhaustion
import IndexFeed.Proofs.Database.Series

/-!
# Readers that have stopped

Whoever has a reader may run it and look for the end of the root array, in any order and with any
handlers.  A run that fails stops the reader for good, and so does one that comes to the end of the
document: from then on every run gives the same answer, and no call takes an octet or hands over an
object.  Until then a look tells what the next run comes to: where it sees the closing bracket no
object is left, and where it does not, behind an object, one is there or the document is faulty.
-/

set_option autoImplicit false

namespace IndexFeed.Database.Reader

variable {σ : Type} {d : Bytes} {r q : Reader}

/-! ## Calls -/

/-- Any number of runs and looks lead from one reader to another.  Each run has a handler of its
own. -/
inductive Later (r : Reader) : Reader → Prop where
  | refl : Later r r
  | run {q : Reader} {σ : Type} (h : Handler σ) (s : σ) : Later r q → Later r (q.run h s).2.1
  | look {q : Reader} : Later r q → Later r q.nextClosesRoot.2

theorem Stands.nextClosesRoot (hr : Stands d r) : Stands d r.nextClosesRoot.2 := by
  rcases r.nextClosesRoot_cases with h | ⟨ha, -, h⟩
  · rw [h]
    exact hr
  · obtain ⟨p, ht⟩ := hr.takes ha
    obtain ⟨-, hcur, -⟩ := r.source.nextToken_spec
    obtain ⟨a, -, hblanks⟩ := r.source.cursor.exists_blanks
    rw [h]
    refine .active (p := p ++ a) ha ?_
    rw [hcur]
    exact ht.trans hblanks

/-- Every call leaves the reader somewhere in the text, at the place of an error or at the end. -/
theorem Later.stands (h : Later r q) (hr : Stands d r) : Stands d q := by
  induction h with
  | refl => exact hr
  | run h s _ ih => exact (run_ends ih h s).stands
  | look _ ih => exact ih.nextClosesRoot

/-! ## Readers that have stopped -/

theorem nextClosesRoot_of_not_active (ha : ¬ r.Active) : r.nextClosesRoot = (.ok false, r) := by
  rcases r.nextClosesRoot_cases with h | ⟨ha', -⟩
  · exact h
  · exact absurd ha' ha

/-- No call changes a reader that has stopped. -/
theorem Later.eq_of_not_active (h : Later r q) (ha : ¬ r.Active) : q = r := by
  induction h with
  | refl => rfl
  | run h s _ ih =>
    obtain ⟨x, -, hrun⟩ := exists_run_of_not_active ha
    rw [ih, hrun]
  | look _ ih => rw [ih, nextClosesRoot_of_not_active ha]

theorem run_of_failed (hr : r.failedAt = some r.offset) (h : Handler σ) (s : σ) :
    r.run h s = (.error (.malformed r.offset .stopped), r, s) := by
  rw [run, hr]

theorem run_of_finished (hr : r.failedAt = none) (hfinished : r.finished = true) (h : Handler σ)
    (s : σ) : r.run h s = (.ok .finished, r, s) := by
  rw [run, hr]
  exact if_pos hfinished

/-- A reader that has stopped with an answer: whatever is called, it stays as it is, a look finds
nothing, and every run gives the answer without a call of its handler. -/
structure Settled (x : Except Error Outcome) (r : Reader) : Prop where
  unchanged : ∀ q, Later r q → q = r
  look : r.nextClosesRoot = (.ok false, r)
  run : ∀ {σ : Type} (h : Handler σ) (s : σ), r.run h s = (x, r, s)

theorem Ends.settled_of_error {h : Handler σ} {e : Error} {s : σ}
    (hends : Ends d h (.error e) r s) : Settled (.error (.malformed r.offset .stopped)) r := by
  cases hends with
  | failed hf _ _ =>
    have ha : ¬ r.Active := fun ha => by
      rw [ha.2] at hf
      cases hf
    exact ⟨fun _ hq => hq.eq_of_not_active ha, nextClosesRoot_of_not_active ha, run_of_failed hf⟩

theorem Ends.settled_of_finished {h : Handler σ} {s : σ}
    (hends : Ends d h (.ok .finished) r s) : Settled (.ok .finished) r := by
  cases hends with
  | finished hf hfinished _ =>
    have ha : ¬ r.Active := fun ha => by
      rw [ha.1] at hfinished
      cases hfinished
    exact ⟨fun _ hq => hq.eq_of_not_active ha, nextClosesRoot_of_not_active ha,
      run_of_finished hf hfinished⟩

/-! ## What a look tells -/

/-- Where a look behind an object does not see the closing bracket, there is another object, or the
document is faulty. -/
theorem delivers_of_nextClosesRoot (ha : r.Active) (hx : r.expect = .nextElement)
    (hlook : r.nextClosesRoot.1 = .ok false) :
    r.delivery.2.2 ≠ [] ∨ ∃ e, r.delivery.1 = .error e := by
  cases hend : r.delivery.1 with
  | error e => exact .inr ⟨e, rfl⟩
  | ok outcome =>
    cases outcome with
    | halted => exact absurd hend (delivery_ne_halted r)
    | finished =>
      refine .inl fun hnone => ?_
      rw [nextClosesRoot_of_delivery ha hx hend hnone] at hlook
      cases hlook

/-- A reader that has an object to deliver, or an error, hands over an object in its next run or fails
there, wherever the handler halts. -/
theorem recorded_of_delivery (hr : r.delivery.2.2 ≠ [] ∨ ∃ e, r.delivery.1 = .error e)
    (h : Handler σ) (s : σ) :
    (r.run h.recorded (s, [])).2.2.2 ≠ [] ∨ ∃ e, (r.run h.recorded (s, [])).1 = .error e := by
  have hspec := run_spec h.recorded r (s, [])
  rcases hf : h.recorded.feed (s, []) r.delivery.2.2 with ⟨t, _ | left⟩
  · rw [hf] at hspec
    rw [hspec]
    rcases hr with hobjects | herror
    · refine .inl ?_
      rw [Handler.feed_none hf, Handler.after_recorded]
      exact hobjects
    · exact .inr herror
  · rw [hf] at hspec
    obtain ⟨r', hrun, -⟩ := hspec
    obtain ⟨pre, o, -, rfl, -⟩ := Handler.feed_some hf
    rw [hrun, Handler.after_recorded]
    exact .inl (List.append_ne_nil_of_right_ne_nil _ (List.cons_ne_nil o []))

/-! ## Any calls -/

/-- **A reader that has stopped has stopped for good.** Take any octets in any buffer, whether or not
the source breaks behind them, and any calls that lead from a fresh reader to `r`.

Where a run of `r` fails, every later run fails at the place where the reader stands then, and where
it finishes, every later run finishes; no later call moves the reader or gets to a handler.

Where a look says that the next token closes the array, the next run hands over nothing.  Where a look
behind a halt says that it does not, the next run hands over an object or fails. -/
theorem stops_for_good {source : Source} (h0 : source.offset = 0)
    (hr : Later { source } r) :
    (∀ {σ : Type} (h : Handler σ) (s : σ) (e : Error) (r' : Reader) (s' : σ),
      r.run h s = (.error e, r', s') → Settled (.error (.malformed r'.offset .stopped)) r') ∧
    (∀ {σ : Type} (h : Handler σ) (s : σ) (r' : Reader) (s' : σ),
      r.run h s = (.ok .finished, r', s') → Settled (.ok .finished) r') ∧
    (∀ r', r.nextClosesRoot = (.ok true, r') →
      ∀ (n : Nat) {τ : Type} (g : Handler τ) (t : τ), ((look n r').run g t).2.2 = t) ∧
    (∀ {σ : Type} (h : Handler σ) (s : σ) (r' : Reader) (s' : σ),
      r.run h s = (.ok .halted, r', s') →
      ∀ (m : Nat) (q : Reader), (look m r').nextClosesRoot = (.ok false, q) →
      ∀ (n : Nat) {τ : Type} (g : Handler τ) (t : τ),
        let next := (look n q).run g.recorded (t, [])
        next.2.2.2 ≠ [] ∨ ∃ e, next.1 = .error e) := by
  have hstands := hr.stands (stands_of_offset h0)
  refine ⟨fun h s e r' s' hrun => ?_, fun h s r' s' hrun => ?_, fun r' hlook n _ g t => ?_,
    fun h s r' s' hrun m q hlook n _ g t => ?_⟩
  · have hends := run_ends hstands h s
    rw [hrun] at hends
    exact hends.settled_of_error
  · have hends := run_ends hstands h s
    rw [hrun] at hends
    exact hends.settled_of_finished
  · -- the looks in between leave what is to be delivered alone
    have hview : (look n r').view = r.view := by
      rw [view_look, ← view_nextClosesRoot r, hlook]
    have hnone := delivery_of_nextClosesRoot (congrArg Prod.fst hlook)
    rw [← (delivery_congr hview).2] at hnone
    rw [run_of_no_delivery hnone]
  · have hends := run_ends hstands h s
    rw [hrun] at hends
    obtain ⟨ha, hx⟩ := hends.active_of_halted
    have hview : (look n q).view = (look m r').view := by
      rw [view_look, ← view_nextClosesRoot (look m r'), hlook]
    have hdelivers := delivers_of_nextClosesRoot (active_of_view_eq (view_look m r') ha)
      ((congrArg Place.expect (view_look m r')).trans hx) (congrArg Prod.fst hlook)
    rw [← (delivery_congr hview).1, ← (delivery_congr hview).2] at hdelivers
    exact recorded_of_delivery hdelivers g t

/-- Two objects and a letter behind the array: the first look says that an object follows and the second
that none does, and the run behind it fails for good.  Over an empty array one run finishes for good. -/
theorem stops_at_letter_behind_array :
    let halt : Handler Unit := fun s _ => (s, false)
    let source := Source.ofBytes [0x5b, 0x7b, 0x7d, 0x2c, 0x7b, 0x7d, 0x20, 0x5d, 0x78] 2
    let brackets := Source.ofBytes [0x5b, 0x5d] 2
    let first := run halt { source } ()
    let second := run halt first.2.1.nextClosesRoot.2 ()
    let third := run halt second.2.1.nextClosesRoot.2 ()
    let empty := run halt { source := brackets } ()
    (first.1 = .ok .halted ∧ first.2.1.nextClosesRoot.1 = .ok false ∧
      ∀ {τ : Type} (g : Handler τ) (t : τ),
        let next := first.2.1.nextClosesRoot.2.run g.recorded (t, [])
        next.2.2.2 ≠ [] ∨ ∃ e, next.1 = .error e) ∧
    (second.2.1.nextClosesRoot.1 = .ok true ∧
      ∀ {τ : Type} (g : Handler τ) (t : τ), (second.2.1.nextClosesRoot.2.run g t).2.2 = t) ∧
    (third.1 = .error (.malformed 8 (.unexpected 0x78 .ending)) ∧
      Settled (.error (.malformed 8 .stopped)) third.2.1) ∧
    empty.1 = .ok .finished ∧ Settled (.ok .finished) empty.2.1 := by
  intro halt source brackets first second third empty
  have hfirst : first.1 = .ok .halted := by decide +kernel
  have hmore : first.2.1.nextClosesRoot.1 = .ok false := by decide +kernel
  have hclose : second.2.1.nextClosesRoot.1 = .ok true := by decide +kernel
  have hthird : third.1 = .error (.malformed 8 (.unexpected 0x78 .ending)) := by decide +kernel
  have hoffset : third.2.1.offset = 8 := by decide +kernel
  have hempty : empty.1 = .ok .finished := by decide +kernel
  have h0 : source.offset = 0 := rfl
  have hsecond : Later { source } second.2.1 := .run halt () (.look (.run halt () .refl))
  obtain ⟨-, -, -, hhalted⟩ := stops_for_good h0 .refl
  obtain ⟨-, -, hclosing, -⟩ := stops_for_good h0 hsecond
  obtain ⟨hfailed, -, -, -⟩ := stops_for_good h0 hsecond.look
  obtain ⟨-, hfinished, -, -⟩ := stops_for_good (show brackets.offset = 0 from rfl) .refl
  refine ⟨⟨hfirst, hmore, fun g t => ?_⟩, ⟨hclose, fun g t => ?_⟩, ⟨hthird, ?_⟩, hempty, ?_⟩
  · exact hhalted halt () _ _ (Prod.ext hfirst rfl) 0 _ (Prod.ext hmore rfl) 0 g t
  · exact hclosing _ (Prod.ext hclose rfl) 0 g t
  · have hsettled := hfailed halt () _ _ _ (Prod.ext hthird rfl)
    rwa [hoffset] at hsettled
  · exact hfinished halt () _ _ (Prod.ext hempty rfl)

end IndexFeed.Database.Reader
