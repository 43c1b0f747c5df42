import Mathlib.Control.Monad.Basic
import IndexFeed.Proofs.Database.Horizon

/-!
# Series of runs

A reader is run again and again, each time with a handler of its own.  The main statement is about the
octets that such a series depends on.  Where the last run halts, these are the octets that have been
taken, up to the brace that closes the last object; where it fails, at most one more.  Nothing behind
them makes a difference to any of the runs.
-/

set_option autoImplicit false

namespace IndexFeed.Database

variable {σ : Type}

open Json (Cursor Object Written deepest normalMembers)

/-- What a run tells its caller: how it ended, how many octets have been taken so far, and the state of
the handler. -/
structure Report (σ : Type) where
  answer : Except Error Outcome
  offset : Nat
  state : σ
  deriving DecidableEq

namespace Reader

variable {m : Nat} {d : Bytes} {r q : Reader} {s : σ} {h : Handler σ} {hs : List (Handler σ)}

/-- Runs with one handler after the other, which share a state. -/
def series : List (Handler σ) → Reader → σ → List (Report σ) × Reader
  | [], r, _ => ([], r)
  | h :: hs, r, s =>
    let (answer, r, s) := r.run h s
    let (reports, q) := series hs r s
    (⟨answer, r.offset, s⟩ :: reports, q)

theorem series_cons (h : Handler σ) (hs : List (Handler σ)) (r : Reader) (s : σ) :
    series (h :: hs) r s =
      (⟨(r.run h s).1, (r.run h s).2.1.offset, (r.run h s).2.2⟩ ::
          (series hs (r.run h s).2.1 (r.run h s).2.2).1,
        (series hs (r.run h s).2.1 (r.run h s).2.2).2) := rfl

/-- The last of the reports comes from the last of the runs. -/
theorem getLast?_series_cons (h : Handler σ) (hs : List (Handler σ)) (r : Reader) (s : σ) :
    (series (h :: hs) r s).1.getLast? =
      match hs with
      | [] => some ⟨(r.run h s).1, (r.run h s).2.1.offset, (r.run h s).2.2⟩
      | _ :: _ => (series hs (r.run h s).2.1 (r.run h s).2.2).1.getLast? := by
  cases hs with
  | nil => rfl
  | cons h' hs => rfl

/-! ## What a series has seen -/

theorem seen_le_run (h : Handler σ) (r : Reader) (s : σ) : r.seen ≤ (r.run h s).2.1.seen := by
  by_cases ha : r.Active
  · rw [run_of_active ha, seen_of_active ha]
    exact Nat.le_trans (le_offset_runSteps h r s) (offset_le_seen _)
  · obtain ⟨x, -, hrun⟩ := exists_run_of_not_active ha
    have hsame : (r.run h s).2.1 = r := by rw [hrun]
    exact Nat.le_of_eq (congrArg seen hsame.symm)

theorem seen_le_series (hs : List (Handler σ)) (r : Reader) (s : σ) :
    r.seen ≤ (series hs r s).2.seen := by
  induction hs generalizing r s with
  | nil => exact Nat.le_refl _
  | cons h hs ih => exact Nat.le_trans (seen_le_run h r s) (ih _ _)

/-- A reader that has stopped stays as it is. -/
theorem series_of_not_active (ha : ¬ r.Active) : (series hs r s).2 = r := by
  obtain ⟨x, -, hrun⟩ := exists_run_of_not_active ha
  induction hs generalizing s with
  | nil => rfl
  | cons h hs ih =>
    rw [series_cons, hrun]
    exact ih

theorem active_of_series (ha : (series hs r s).2.Active) : r.Active := by
  by_cases hr : r.Active
  · exact hr
  · rwa [series_of_not_active hr] at ha

theorem unfinished_of_series (hr : (series hs r s).2.finished = false) : r.finished = false := by
  by_cases ha : r.Active
  · exact ha.1
  · rwa [series_of_not_active ha] at hr

/-- A series that is not through with its document comes to the same on any text that agrees with this
one in the octets it has seen. -/
theorem series_alike (hrq : r.Alike m q) (hfinished : (series hs r s).2.finished = false)
    (hm : (series hs r s).2.seen ≤ m) :
    ∃ q', series hs q s = ((series hs r s).1, q') ∧ (series hs r s).2.Alike m q' := by
  induction hs generalizing r q s with
  | nil => exact ⟨q, rfl, hrq⟩
  | cons h hs ih =>
    rw [series_cons] at hfinished hm ⊢
    obtain ⟨q₁, hq₁, hrq₁⟩ := run_alike h hrq s (unfinished_of_series hfinished)
      (Nat.le_trans (seen_le_series hs _ _) hm)
    obtain ⟨q', hq', hrq'⟩ := ih hrq₁ hfinished hm
    refine ⟨q', ?_, hrq'⟩
    rw [series_cons, hq₁, hq', hrq₁.offset]

/-! ## Where a series stands -/

/-- Where a reader of the text stands: in front of what it has not taken, at the place of an error, or
at the end. -/
inductive Stands (d : Bytes) (r : Reader) : Prop where
  | active {p : Bytes} : r.Active → (Cursor.start d).Takes p r.source.cursor → Stands d r
  | failed : r.failedAt = some r.offset → r.finished = false → Stands d r
  | finished : r.failedAt = none → r.finished = true → r.offset = d.length → Stands d r

/-- How a run over the text ends: behind an object that the handler has been handed, at the end, or
with an error that is located where the reader stands. -/
inductive Ends (d : Bytes) (h : Handler σ) : Except Error Outcome → Reader → σ → Prop where
  | halted {r : Reader} {s : σ} {ms : Object} {p o : Bytes} : r.Active → r.expect = .nextElement →
      (Cursor.start d).Takes (p ++ o) r.source.cursor → Written deepest (.value (.object ms)) o →
      Ends d h (.ok .halted) r (h s (normalMembers ms)).1
  | finished {r : Reader} {s : σ} : r.failedAt = none → r.finished = true → r.offset = d.length →
      Ends d h (.ok .finished) r s
  | failed {e : Error} {r : Reader} {s : σ} : r.failedAt = some r.offset → r.finished = false →
      (∀ k c, e = .malformed k c → k = r.offset) → Ends d h (.error e) r s

theorem Ends.stands {x : Except Error Outcome} (hends : Ends d h x r s) : Stands d r := by
  cases hends with
  | halted ha _ ht _ => exact .active ha ht
  | finished hf hfinished hd => exact .finished hf hfinished hd
  | failed hf hfinished _ => exact .failed hf hfinished

theorem Stands.takes (hr : Stands d r) (ha : r.Active) :
    ∃ p, (Cursor.start d).Takes p r.source.cursor := by
  cases hr with
  | active _ ht => exact ⟨_, ht⟩
  | failed hf _ =>
    rw [ha.2] at hf
    cases hf
  | finished _ hfinished _ =>
    rw [ha.1] at hfinished
    cases hfinished

theorem Ends.active_of_halted (hends : Ends d h (.ok .halted) r s) :
    r.Active ∧ r.expect = .nextElement := by
  cases hends with
  | halted ha hx _ _ => exact ⟨ha, hx⟩

theorem Ends.seen_of_malformed {k : Nat} {complaint : Complaint}
    (hends : Ends d h (.error (.malformed k complaint)) r s) :
    r.finished = false ∧ r.seen = k + 1 := by
  cases hends with
  | failed hf hfinished hk =>
    refine ⟨hfinished, ?_⟩
    rw [seen, hf, hk k complaint rfl]

theorem Ends.answer_of_active {x : Except Error Outcome} (hends : Ends d h x r s) (ha : r.Active) :
    x = .ok .halted := by
  cases hends with
  | halted => rfl
  | finished _ hfinished _ =>
    rw [ha.1] at hfinished
    cases hfinished
  | failed hf _ _ =>
    rw [ha.2] at hf
    cases hf

/-- What a step over the text comes to. -/
def Step.Stays (d : Bytes) (h : Handler σ) : Step σ → Prop
  | .proceed r _ => r.Active ∧ ∃ p, (Cursor.start d).Takes p r.source.cursor
  | .halt r s => Ends d h (.ok .halted) r s
  | .finish r s => Ends d h (.ok .finished) { r with finished := true } s
  | .fail e r s => Ends d h (.error e) { r with failedAt := some r.offset } s

theorem step_stays {p : Bytes} (ha : r.Active) (ht : (Cursor.start d).Takes p r.source.cursor)
    (h : Handler σ) (s : σ) : (step h r s).Stays d h := by
  obtain ⟨source, hcur, hshape⟩ := r.step_shape
  obtain ⟨a, -, hblanks⟩ := r.source.cursor.exists_blanks
  rw [← hcur] at hblanks
  have hz := ht.trans hblanks
  rw [step_eq_under]
  generalize step .note r none = o at hshape
  cases hshape with
  | framing next hb => exact ⟨ha, _, hz.trans (Cursor.Takes.one hb)⟩
  | @element ms o t hw ho =>
    have htake : (Cursor.start d).Takes (p ++ a ++ o) (source.readThrough o.length).cursor := by
      rw [Source.cursor_readThrough]
      exact hz.trans (Cursor.Takes.of_prefix ⟨t, ho.symm⟩)
    rw [Step.under]
    split
    · exact ⟨ha, _, htake⟩
    · exact .halted ha rfl htake hw
  | finish hnil =>
    refine .finished ha.2 rfl ?_
    have hd : d = p ++ a := by simpa using hz.of_start.trans (congrArg _ hnil)
    rw [hd]
    exact hz.2.trans (Nat.zero_add _)
  | fail n he => exact .failed rfl ha.1 fun k c e => (he k c e).trans (offset_readThrough ..).symm

theorem runSteps_ends {p : Bytes} (ha : r.Active) (ht : (Cursor.start d).Takes p r.source.cursor)
    (h : Handler σ) (s : σ) :
    Ends d h (runSteps h r s).1 (runSteps h r s).2.1 (runSteps h r s).2.2 := by
  fun_induction runSteps h r s generalizing p with
  | case1 r s r' s' hs ih =>
    have hstep := step_stays ha ht h s
    rw [hs] at hstep
    obtain ⟨ha', p', ht'⟩ := hstep
    exact ih ha' ht'
  | case2 r s r' s' hs | case3 r s r' s' hs | case4 r s e r' s' hs =>
    have hstep := step_stays ha ht h s
    rw [hs] at hstep
    exact hstep

theorem run_ends (hr : Stands d r) (h : Handler σ) (s : σ) :
    Ends d h (r.run h s).1 (r.run h s).2.1 (r.run h s).2.2 := by
  cases hr with
  | active ha ht =>
    rw [run_of_active ha]
    exact runSteps_ends ha ht h s
  | failed hf hfinished =>
    rw [run, hf]
    refine .failed hf hfinished fun k c e => ?_
    cases e
    rfl
  | finished hf hfinished hd =>
    rw [run, hf]
    dsimp only
    rw [if_pos hfinished]
    exact .finished hf hfinished hd

/-- The last report of a series says how one of its handlers came to its end. -/
theorem series_ends (hr : Stands d r) {last : Report σ}
    (hlast : (series hs r s).1.getLast? = some last) :
    ∃ h ∈ hs, Ends d h last.answer (series hs r s).2 last.state ∧
      last.offset = (series hs r s).2.offset := by
  induction hs generalizing r s with
  | nil => cases hlast
  | cons h hs ih =>
    have hends := run_ends hr h s
    rw [getLast?_series_cons] at hlast
    cases hs with
    | nil =>
      cases hlast
      exact ⟨h, List.mem_cons_self, hends, rfl⟩
    | cons h' hs =>
      obtain ⟨h'', hmem, hends', hoffset⟩ := ih hends.stands hlast
      exact ⟨h'', List.mem_cons_of_mem h hmem, hends', hoffset⟩

/-! ## What a series hands over -/

/-- Behind a run that halts, the objects handed over and those still to come are those that were to
come in front of it. -/
theorem run_delivery {seen : List Object} {r' : Reader} {t : σ × List Object}
    (hrun : r.run h.recorded (s, seen) = (.ok .halted, r', t)) :
    r'.delivery.1 = r.delivery.1 ∧ t.2 ++ r'.delivery.2.2 = seen ++ r.delivery.2.2 := by
  have hspec := run_spec h.recorded r (s, seen)
  rw [hrun] at hspec
  cases hf : h.recorded.feed (s, seen) r.delivery.2.2 with
  | mk t' left =>
    rw [hf] at hspec
    cases left with
    | none => exact absurd (congrArg Prod.fst hspec).symm (delivery_ne_halted r)
    | some left =>
      obtain ⟨q, hq, hd, -⟩ := hspec
      cases hq
      obtain ⟨pre, o, hos, rfl, -⟩ := Handler.feed_some hf
      rw [hd, hos, Handler.after_recorded]
      exact ⟨rfl, by simp [Handler.recorded]⟩

theorem series_delivery (hr : Stands d r) {seen : List Object} {last : Report (σ × List Object)}
    (hlast : (series (hs.map Handler.recorded) r (s, seen)).1.getLast? = some last)
    (ha : (series (hs.map Handler.recorded) r (s, seen)).2.Active) :
    (series (hs.map Handler.recorded) r (s, seen)).2.delivery.1 = r.delivery.1 ∧
      last.state.2 ++ (series (hs.map Handler.recorded) r (s, seen)).2.delivery.2.2 =
        seen ++ r.delivery.2.2 := by
  induction hs generalizing r s seen with
  | nil => cases hlast
  | cons h hs ih =>
    have hends := run_ends hr h.recorded (s, seen)
    rw [List.map_cons] at hlast ha ⊢
    rw [series_cons] at ha ⊢
    rw [getLast?_series_cons] at hlast
    have hhalted := hends.answer_of_active (active_of_series ha)
    obtain ⟨hx, hos⟩ := run_delivery (Prod.ext hhalted rfl)
    cases hs with
    | nil =>
      cases hlast
      exact ⟨hx, hos⟩
    | cons h' hs =>
      obtain ⟨hx', hos'⟩ := ih hends.stands hlast ha
      exact ⟨hx'.trans hx, hos'.trans hos⟩

/-! ## What a series depends on -/

/-- The reports of a series over a text, with a record of the objects in the state. -/
def reports (hs : List (Handler σ)) (s : σ) (d : Bytes) (capacity : Nat) :
    List (Report (σ × List Object)) :=
  (series (hs.map Handler.recorded) { source := .ofBytes d capacity } (s, [])).1

theorem stands_of_offset {source : Source} (h : source.offset = 0) :
    Stands source.rest { source } := by
  refine .active (p := []) ⟨rfl, rfl⟩ ?_
  rw [show source.cursor = Cursor.start source.rest by rw [Source.cursor, h]; rfl]
  exact Cursor.Takes.refl _

theorem stands_ofBytes (d : Bytes) (capacity : Nat) :
    Stands d { source := .ofBytes d capacity } :=
  stands_of_offset (show (Source.ofBytes d capacity).offset = 0 from rfl)

theorem alike_ofBytes {d' : Bytes} (hd : d'.take m = d.take m) (capacity capacity' : Nat) :
    ({ source := .ofBytes d capacity } : Reader).Alike m { source := .ofBytes d' capacity' } :=
  ⟨⟨rfl, hd⟩, rfl, rfl, rfl, rfl, rfl⟩

section Reports

variable {capacity : Nat} {last : Report (σ × List Object)} {z : Reader}

/-- A series that is not through with its text comes to the same on any text that agrees with it in
what the series has seen. -/
theorem reports_alike
    (hz : (series (hs.map Handler.recorded) { source := .ofBytes d capacity } (s, [])).2 = z)
    (hfinished : z.finished = false) {d' : Bytes} (hd : d'.take z.seen = d.take z.seen)
    (capacity' : Nat) :
    ∃ z', series (hs.map Handler.recorded) { source := .ofBytes d' capacity' } (s, []) =
      (reports hs s d capacity, z') ∧ z.Alike z.seen z' := by
  subst hz
  exact series_alike (alike_ofBytes hd capacity capacity') hfinished (Nat.le_refl _)

theorem reports_congr
    (hz : (series (hs.map Handler.recorded) { source := .ofBytes d capacity } (s, [])).2 = z)
    (hfinished : z.finished = false) {d' : Bytes} (hd : d'.take z.seen = d.take z.seen)
    (capacity' : Nat) : reports hs s d' capacity' = reports hs s d capacity := by
  obtain ⟨z', hz', -⟩ := reports_alike hz hfinished hd capacity'
  rw [reports, hz']

/-- A reader that has been halted stands behind the brace that closes the last object. -/
theorem Ends.closing_brace {t : σ × List Object} (hends : Ends d h.recorded (.ok .halted) z t) :
    ∃ p o ms seen, d.take z.offset = p ++ (o ++ [Octet.closeBrace]) ∧
      (p ++ (o ++ [Octet.closeBrace])).length = z.offset ∧
      Written deepest (.value (.object ms)) (o ++ [Octet.closeBrace]) ∧
      t.2 = seen ++ [normalMembers ms] := by
  cases hends with
  | @halted _ before ms p o ha hx ht hw =>
    have hbrace : ∃ o', o = o' ++ [Octet.closeBrace] := by
      cases hw with
      | @emptyObject _ a _ => exact ⟨Octet.openBrace :: a, rfl⟩
      | @object _ _ q _ => exact ⟨Octet.openBrace :: q, rfl⟩
    obtain ⟨o, rfl⟩ := hbrace
    exact ⟨p, o, ms, before.2, ht.take_of_start, ht.length_of_start, hw, rfl⟩

/-- What a halted reader has taken is a document once the array is closed. -/
theorem closed_after_halt
    (hz : (series (hs.map Handler.recorded) { source := .ofBytes d capacity } (s, [])).2 = z)
    (hlast : (reports hs s d capacity).getLast? = some last) (ha : z.Active)
    (hx : z.expect = .nextElement) (capacity' : Nat) :
    ∃ z', run Handler.keepAll
      { source := .ofBytes (d.take z.offset ++ [Octet.closeBracket]) capacity' } [] =
        (.ok .finished, z', last.state.2) := by
  obtain ⟨_, _, hends, -⟩ := series_ends (stands_ofBytes d capacity) hlast
  rw [hz] at hends
  obtain ⟨p, ht⟩ := hends.stands.takes ha
  have hp : p.length = z.offset := ht.length_of_start
  rw [show d.take z.offset = p from ht.take_of_start]
  -- over the closed text the series comes to the same, and its reader stands in front of the bracket
  have hagree : (p ++ [Octet.closeBracket]).take z.seen = d.take z.seen := by
    rw [seen_of_active ha, List.take_left' hp]
    exact ht.take_of_start.symm
  obtain ⟨z', hz', hzz'⟩ := reports_alike hz ha.1 hagree capacity'
  have hlast' : (reports hs s (p ++ [Octet.closeBracket]) capacity').getLast? = some last := by
    rw [reports, hz']
    exact hlast
  have ha' : z'.Active := ⟨hzz'.finished.trans ha.1, hzz'.failedAt.trans ha.2⟩
  obtain ⟨_, _, hends', -⟩ := series_ends (stands_ofBytes _ capacity') hlast'
  obtain ⟨hend, hos⟩ := series_delivery (stands_ofBytes _ capacity') hlast' (by rwa [hz'])
  rw [hz'] at hends' hend hos
  obtain ⟨p', ht'⟩ := hends'.stands.takes ha'
  have hp' : p'.length = z.offset := ht'.length_of_start.trans hzz'.offset
  have hrest : z'.source.rest = [Octet.closeBracket] :=
    (List.append_inj_right ht'.of_start (hp.trans hp'.symm)).symm
  have hremains : Remains .nextElement [] [Octet.closeBracket] :=
    .framing .close (a := []) (fun _ hb => nomatch hb) (.done fun _ hb => nomatch hb)
  obtain ⟨hfinished, hnone⟩ :=
    delivery_of_remains hremains ha' hzz'.unbroken' (hzz'.expect.trans hx) hrest
  rw [hnone, List.map_nil, List.append_nil, List.nil_append] at hos
  exact ⟨_, Prod.ext (hend.symm.trans hfinished) (Prod.ext rfl hos.symm)⟩

end Reports

/-- **A series depends on what it has taken, and on one octet more where it fails.** Take any handlers,
one for each run, with a state that they share, and any buffer.

If the last run halts, the last octet taken closes the brace of the object that was handed over last.
The series is the same, report by report, over every text that starts with the octets taken, however it
is buffered.  Those octets and a bracket are a whole document, with the objects handed over so far.

If the last run finds the text malformed, at the octet with the number `k`, the series is the same over
every text that agrees with this one in the octets up to that one.

If it finishes, all octets have been taken. -/
theorem series_reads_no_further (hs : List (Handler σ)) (s : σ) (d : Bytes) (capacity : Nat)
    {last : Report (σ × List Object)} (hlast : (reports hs s d capacity).getLast? = some last) :
    (last.answer = .ok .halted →
      (∃ p o ms seen, d.take last.offset = p ++ (o ++ [Octet.closeBrace]) ∧
        (p ++ (o ++ [Octet.closeBrace])).length = last.offset ∧
        Written deepest (.value (.object ms)) (o ++ [Octet.closeBrace]) ∧
        last.state.2 = seen ++ [normalMembers ms]) ∧
      (∀ d' capacity', d.take last.offset <+: d' →
        reports hs s d' capacity' = reports hs s d capacity) ∧
      ∀ capacity', ∃ z, run Handler.keepAll
        { source := .ofBytes (d.take last.offset ++ [Octet.closeBracket]) capacity' } [] =
          (.ok .finished, z, last.state.2)) ∧
    (∀ k complaint, last.answer = .error (.malformed k complaint) →
      ∀ d' capacity', d'.take (k + 1) = d.take (k + 1) →
        reports hs s d' capacity' = reports hs s d capacity) ∧
    (last.answer = .ok .finished → last.offset = d.length) := by
  obtain ⟨h, hmem, hends, hoffset⟩ := series_ends (stands_ofBytes d capacity) hlast
  obtain ⟨h, -, rfl⟩ := List.mem_map.1 hmem
  generalize hz : (series (hs.map Handler.recorded) _ _).2 = z at *
  rw [hoffset]
  refine ⟨fun hanswer => ?_, fun k complaint hanswer => ?_, fun hanswer => ?_⟩
  · rw [hanswer] at hends
    obtain ⟨ha, hx⟩ := hends.active_of_halted
    refine ⟨hends.closing_brace, fun d' capacity' hd => ?_, closed_after_halt hz hlast ha hx⟩
    refine reports_congr hz ha.1 ?_ capacity'
    obtain ⟨p, ht⟩ := hends.stands.takes ha
    have hlength : (d.take z.offset).length = z.offset := by
      rw [show d.take z.offset = p from ht.take_of_start]
      exact ht.length_of_start
    have htake := List.prefix_iff_eq_take.1 hd
    rw [hlength] at htake
    rw [seen_of_active ha]
    exact htake.symm
  · rw [hanswer] at hends
    obtain ⟨hfinished, hseen⟩ := hends.seen_of_malformed
    exact fun d' capacity' hd => reports_congr hz hfinished (hseen ▸ hd) capacity'
  · rw [hanswer] at hends
    cases hends with
    | finished _ _ hd => exact hd

/-- A handler that halts behind every object, over an array that goes on with an object: nothing tells
how it goes on.  A second run meets a letter where an object should be, and nothing tells what is behind
the letter. -/
theorem series_over_one_object :
    let halt : Handler Unit := fun s _ => (s, false)
    (∀ d' capacity, [0x5b, 0x7b, 0x7d] <+: d' →
      reports [halt] () d' capacity = [⟨.ok .halted, 3, ((), [[]])⟩]) ∧
    ∀ d' capacity, d'.take 5 = [0x5b, 0x7b, 0x7d, 0x2c, 0x78] →
      reports [halt, halt] () d' capacity =
        [⟨.ok .halted, 3, ((), [[]])⟩, ⟨.error (.malformed 4 .notAnObject), 4, ((), [[]])⟩] := by
  intro halt
  refine ⟨fun d' capacity hd => ?_, fun d' capacity hd => ?_⟩
  · have hlast : (reports [halt] () [0x5b, 0x7b, 0x7d] 1).getLast? =
        some ⟨.ok .halted, 3, ((), [[]])⟩ := by decide +kernel
    obtain ⟨hhalted, -, -⟩ := series_reads_no_further _ _ _ _ hlast
    obtain ⟨-, hsame, -⟩ := hhalted rfl
    exact (hsame d' capacity hd).trans (by decide +kernel)
  · have hlast : (reports [halt, halt] () [0x5b, 0x7b, 0x7d, 0x2c, 0x78, 0x79] 1).getLast? =
        some ⟨.error (.malformed 4 .notAnObject), 4, ((), [[]])⟩ := by decide +kernel
    obtain ⟨-, hmalformed, -⟩ := series_reads_no_further _ _ _ _ hlast
    exact (hmalformed 4 _ rfl d' capacity hd).trans (by decide +kernel)

end Reader

end IndexFeed.Database
