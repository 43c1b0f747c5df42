import IndexFeed.Proofs.Database.Place

/-!
# What a reader delivers

A handler decides where a run halts and nothing else: the objects that are still to come and the
way the document ends are a matter of the reader.  `Reader.delivery` is both, as a run that never
halts has them, and `run_spec` says what a run with any handler makes of them.
-/

set_option autoImplicit false

namespace IndexFeed.Database

variable {σ : Type}

/-! ## Handlers on lists -/

namespace Handler

/-- Keeps the objects in order and never halts. -/
def keepAll : Handler (List Json.Object) := record fun _ => false

/-- Notes the object that it is handed. -/
def note : Handler (Option Json.Object) := fun _ o => (some o, true)

/-- Hands the objects of a list to a handler until it halts: its state, and the objects behind the
one where it halted. -/
def feed (h : Handler σ) (s : σ) : List Json.Object → σ × Option (List Json.Object)
  | [] => (s, none)
  | o :: os => if (h s o).2 then feed h (h s o).1 os else ((h s o).1, some os)

/-- The state of a handler behind the objects of a list, wherever it halts among them. -/
def after (h : Handler σ) (s : σ) (os : List Json.Object) : σ :=
  os.foldl (fun s o => (h s o).1) s

@[simp] theorem keepAll_apply (seen : List Json.Object) (o : Json.Object) :
    keepAll seen o = (seen ++ [o], true) := rfl

@[simp] theorem feed_nil (h : Handler σ) (s : σ) : h.feed s [] = (s, none) := rfl

theorem feed_cons_of_more {h : Handler σ} {s : σ} {o : Json.Object} (os : List Json.Object)
    (hm : (h s o).2 = true) : h.feed s (o :: os) = h.feed (h s o).1 os := by
  simp [feed, hm]

theorem feed_cons_of_halt {h : Handler σ} {s : σ} {o : Json.Object} (os : List Json.Object)
    (hm : (h s o).2 = false) : h.feed s (o :: os) = ((h s o).1, some os) := by
  simp [feed, hm]

theorem after_append (h : Handler σ) (s : σ) (pre : List Json.Object) (o : Json.Object)
    (os : List Json.Object) :
    h.after s (pre ++ o :: os) = h.after (h (h.after s pre) o).1 os := by
  simp [after]

/-- A handler that goes on throughout has been handed all objects. -/
theorem feed_none {h : Handler σ} {s t : σ} {os : List Json.Object}
    (hf : h.feed s os = (t, none)) : t = h.after s os := by
  induction os generalizing s with
  | nil =>
    cases hf
    rfl
  | cons o os ih =>
    cases hm : (h s o).2 with
    | true =>
      rw [feed_cons_of_more os hm] at hf
      exact ih hf
    | false =>
      rw [feed_cons_of_halt os hm] at hf
      cases hf

/-- A handler that halts does so behind one of the objects, with those behind it left. -/
theorem feed_some {h : Handler σ} {s t : σ} {os left : List Json.Object}
    (hf : h.feed s os = (t, some left)) :
    ∃ pre o, os = pre ++ o :: left ∧ t = (h (h.after s pre) o).1 ∧
      (h (h.after s pre) o).2 = false := by
  induction os generalizing s with
  | nil => cases hf
  | cons o os ih =>
    cases hm : (h s o).2 with
    | true =>
      rw [feed_cons_of_more os hm] at hf
      obtain ⟨pre, o', rfl, ht, hhalt⟩ := ih hf
      exact ⟨o :: pre, o', rfl, ht, hhalt⟩
    | false =>
      rw [feed_cons_of_halt os hm] at hf
      cases hf
      exact ⟨[], o, rfl, rfl, hm⟩

end Handler

namespace Reader

/-! ## Steps without their handler -/

/-- The reader behind a step. -/
def Step.reader : Step σ → Reader
  | proceed r _ | halt r _ | finish r _ | fail _ r _ => r

/-- The step that a handler makes of one at which the object read, if there is one, has only been
noted. -/
def Step.under (h : Handler σ) (s : σ) : Step (Option Json.Object) → Step σ
  | proceed r none => .proceed r s
  | proceed r (some o) => if (h s o).2 then .proceed r (h s o).1 else .halt r (h s o).1
  | halt r _ => .halt r s
  | finish r _ => .finish r s
  | fail e r _ => .fail e r s

theorem readElement_eq_under (h : Handler σ) (r : Reader) (s : σ) :
    readElement h r s = (readElement .note r none).under h s := by
  unfold readElement
  split <;> rfl

/-- A handler decides only whether a step that reads an object halts. -/
theorem step_eq_under (h : Handler σ) (r : Reader) (s : σ) :
    step h r s = (step .note r none).under h s := by
  unfold step
  split
  · rfl
  · dsimp only
    split <;> rfl
  · have helem := fun r => readElement_eq_under h r s
    dsimp only
    split
    · split <;> rfl
    · split
      · rfl
      · split
        · exact helem _
        · rfl
    · split
      · rfl
      · split <;> rfl
    · split
      · exact helem _
      · split <;> rfl
    · rfl

/-- A step halts only if the handler says so. -/
theorem step_note_ne_halt (r r' : Reader) (t : Option Json.Object) :
    step .note r none ≠ .halt r' t := by
  have helem : ∀ r, readElement .note r none ≠ .halt r' t := by
    intro r e
    unfold readElement at e
    split at e <;> cases e
  intro e
  unfold step at e
  split at e
  · cases e
  · dsimp only at e
    split at e <;> cases e
  · dsimp only at e
    split at e
    · split at e <;> cases e
    · split at e
      · cases e
      · split at e
        · exact helem _ e
        · cases e
    · split at e
      · cases e
      · split at e <;> cases e
    · split at e
      · exact helem _ e
      · split at e <;> cases e
    · cases e

/-- Induction along the steps of a reader: what holds where it stops, and in front of each step that
goes on if it holds behind the step, holds of every reader. -/
theorem step_induction {motive : Reader → Prop}
    (framing : ∀ r r', step .note r none = .proceed r' none → motive r' → motive r)
    (object : ∀ r r' o, step .note r none = .proceed r' (some o) → motive r' → motive r)
    (finish : ∀ r r' found, step .note r none = .finish r' found → motive r)
    (fail : ∀ r e r' found, step .note r none = .fail e r' found → motive r) (r : Reader) :
    motive r := by
  induction hn : r.source.rest.length using Nat.strongRecOn generalizing r with
  | ind n ih =>
    cases hm : step .note r none with
    | proceed r' found =>
      have hlater := ih _ (hn ▸ step_lt hm) r' rfl
      cases found with
      | none => exact framing r r' hm hlater
      | some o => exact object r r' o hm hlater
    | halt r' found => exact absurd hm (step_note_ne_halt r r' found)
    | finish r' found => exact finish r r' found hm
    | fail e r' found => exact fail r e r' found hm

/-- The parts of a reader that its steps leave alone. -/
def constants (r : Reader) : Bool × Option Nat × Option String :=
  (r.finished, r.failedAt, r.source.failure)

theorem constants_readElement (h : Handler σ) (r : Reader) (s : σ) :
    (readElement h r s).reader.constants = r.constants := by
  unfold readElement
  split
  · dsimp only
    split <;> simp [constants, Step.reader, Source.failure_readThrough]
  · simp [constants, Step.reader, Source.failure_readThrough]

theorem constants_step (h : Handler σ) (r : Reader) (s : σ) :
    (step h r s).reader.constants = r.constants := by
  obtain ⟨-, -, hfail⟩ := r.source.nextToken_spec
  unfold step
  generalize r.source.nextToken = t at *
  obtain ⟨token, source⟩ := t
  have hsource : ({ r with source } : Reader).constants = r.constants := by
    simpa [constants] using hfail
  have helem : (readElement h { r with source } s).reader.constants = r.constants :=
    (constants_readElement h _ s).trans hsource
  rcases token with text | _ | b
  · exact hsource
  · dsimp only
    split <;> exact hsource
  · dsimp only
    split
    · split <;> exact hsource
    · split
      · exact hsource
      · split
        · exact helem
        · exact hsource
    · split
      · exact hsource
      · split <;> exact hsource
    · split
      · exact helem
      · split <;> exact hsource
    · exact hsource

theorem constants_of_proceed {r r' : Reader} {found : Option Json.Object}
    (hm : step .note r none = .proceed r' found) : r'.constants = r.constants := by
  have hc := constants_step .note r none
  rwa [hm] at hc

/-! ## Deliveries -/

/-- What a run that never halts comes to: how the document ends, the reader it leaves and the
objects on the way. -/
def delivery (r : Reader) : Except Error Outcome × Reader × List Json.Object :=
  r.run .keepAll []

theorem run_of_active {r : Reader} (ha : r.Active) (h : Handler σ) (s : σ) :
    r.run h s = runSteps h r s := by
  simp [run, ha.1, ha.2]

theorem active_of_constants_eq {r r' : Reader} (h : r'.constants = r.constants)
    (ha : r.Active) : r'.Active :=
  ⟨(congrArg Prod.fst h).trans ha.1, (congrArg (fun c => c.2.1) h).trans ha.2⟩

/-- A reader that has stopped answers at once, and no object gets to the handler. -/
theorem exists_run_of_not_active {r : Reader} (ha : ¬ r.Active) :
    ∃ x, x ≠ .ok .halted ∧ ∀ {σ : Type} (h : Handler σ) (s : σ), r.run h s = (x, r, s) := by
  cases hf : r.failedAt with
  | some offset =>
    exact ⟨.error (.malformed offset .stopped), by simp, fun h s => by simp [run, hf]⟩
  | none =>
    have hfin : r.finished = true := by simpa [Active, hf] using ha
    exact ⟨.ok .finished, by simp, fun h s => by simp [run, hf, hfin]⟩

/-- Objects kept before make no difference to a run that keeps all. -/
theorem runSteps_keepAll (r : Reader) (seen : List Json.Object) :
    runSteps .keepAll r seen =
      ((runSteps .keepAll r []).1, (runSteps .keepAll r []).2.1,
        seen ++ (runSteps .keepAll r []).2.2) := by
  induction r using step_induction generalizing seen with
  | framing r r' hm ih =>
    have hseen := step_eq_under .keepAll r seen
    have hnil := step_eq_under .keepAll r []
    rw [hm] at hseen hnil
    rw [runSteps_of_proceed hseen, runSteps_of_proceed hnil]
    exact ih seen
  | object r r' o hm ih =>
    have hseen := step_eq_under .keepAll r seen
    have hnil := step_eq_under .keepAll r []
    rw [hm] at hseen hnil
    rw [runSteps_of_proceed hseen, runSteps_of_proceed hnil, Handler.keepAll_apply,
      Handler.keepAll_apply, ih (seen ++ [o]), ih ([] ++ [o])]
    simp
  | finish r r' found hm =>
    have hseen := step_eq_under .keepAll r seen
    have hnil := step_eq_under .keepAll r []
    rw [hm] at hseen hnil
    simp [runSteps_of_finish hseen, runSteps_of_finish hnil]
  | fail r e r' found hm =>
    have hseen := step_eq_under .keepAll r seen
    have hnil := step_eq_under .keepAll r []
    rw [hm] at hseen hnil
    simp [runSteps_of_fail hseen, runSteps_of_fail hnil]

section Equations

variable {r r' : Reader} {found : Option Json.Object} (ha : r.Active)
include ha

theorem delivery_eq_runSteps : r.delivery = runSteps .keepAll r [] := run_of_active ha _ _

theorem active_of_proceed (hm : step .note r none = .proceed r' found) : r'.Active :=
  active_of_constants_eq (constants_of_proceed hm) ha

theorem delivery_of_framing (hm : step .note r none = .proceed r' none) :
    r.delivery = r'.delivery := by
  have hs := step_eq_under .keepAll r []
  rw [hm] at hs
  rw [delivery_eq_runSteps ha, delivery_eq_runSteps (active_of_proceed ha hm),
    runSteps_of_proceed hs]

theorem delivery_of_object {o : Json.Object} (hm : step .note r none = .proceed r' (some o)) :
    r.delivery = (r'.delivery.1, r'.delivery.2.1, o :: r'.delivery.2.2) := by
  have hs := step_eq_under .keepAll r []
  rw [hm] at hs
  rw [delivery_eq_runSteps ha, delivery_eq_runSteps (active_of_proceed ha hm),
    runSteps_of_proceed hs, Handler.keepAll_apply, runSteps_keepAll]
  rfl

theorem delivery_of_finish (hm : step .note r none = .finish r' found) :
    r.delivery = (.ok .finished, { r' with finished := true }, []) := by
  have hs := step_eq_under .keepAll r []
  rw [hm] at hs
  rw [delivery_eq_runSteps ha, runSteps_of_finish hs]

theorem delivery_of_fail {e : Error} (hm : step .note r none = .fail e r' found) :
    r.delivery = (.error e, { r' with failedAt := some r'.offset }, []) := by
  have hs := step_eq_under .keepAll r []
  rw [hm] at hs
  rw [delivery_eq_runSteps ha, runSteps_of_fail hs]

end Equations

/-- A run that never halts ends with an error or the document. -/
theorem delivery_ne_halted (r : Reader) : r.delivery.1 ≠ .ok .halted := by
  by_cases ha : r.Active
  · induction r using step_induction with
    | framing r r' hm ih =>
      rw [delivery_of_framing ha hm]
      exact ih (active_of_proceed ha hm)
    | object r r' o hm ih =>
      rw [delivery_of_object ha hm]
      exact ih (active_of_proceed ha hm)
    | finish r r' found hm => simp [delivery_of_finish ha hm]
    | fail r e r' found hm => simp [delivery_of_fail ha hm]
  · obtain ⟨x, hx, hrun⟩ := exists_run_of_not_active ha
    rwa [delivery, hrun]

/-- **What a run with a handler comes to.** The handler is handed the objects of the delivery in
order.  Where it halts, the reader still delivers the objects behind that one, and the same end;
where it does not, the run ends as the delivery does. -/
theorem run_spec (h : Handler σ) (r : Reader) (s : σ) :
    match h.feed s r.delivery.2.2 with
    | (t, none) => r.run h s = (r.delivery.1, r.delivery.2.1, t)
    | (t, some left) => ∃ r', r.run h s = (.ok .halted, r', t) ∧
        r'.delivery = (r.delivery.1, r.delivery.2.1, left) ∧ r'.constants = r.constants := by
  by_cases ha : r.Active
  · induction r using step_induction generalizing s with
    | framing r r' hm ih =>
      have ha' := active_of_proceed ha hm
      have hs := step_eq_under h r s
      have hc := constants_of_proceed hm
      rw [hm] at hs
      rw [delivery_of_framing ha hm, run_of_active ha, runSteps_of_proceed hs, ← run_of_active ha',
        ← hc]
      exact ih s ha'
    | object r r' o hm ih =>
      have ha' := active_of_proceed ha hm
      have hs := step_eq_under h r s
      have hc := constants_of_proceed hm
      rw [hm] at hs
      rw [delivery_of_object ha hm]
      cases hmore : (h s o).2 with
      | true =>
        rw [Step.under, if_pos hmore] at hs
        rw [Handler.feed_cons_of_more _ hmore, run_of_active ha, runSteps_of_proceed hs,
          ← run_of_active ha', ← hc]
        exact ih (h s o).1 ha'
      | false =>
        rw [Step.under, if_neg (by simp [hmore])] at hs
        rw [Handler.feed_cons_of_halt _ hmore, run_of_active ha, runSteps_of_halt hs]
        exact ⟨r', rfl, rfl, hc⟩
    | finish r r' found hm =>
      have hs := step_eq_under h r s
      rw [hm] at hs
      rw [delivery_of_finish ha hm, run_of_active ha, runSteps_of_finish hs]
      rfl
    | fail r e r' found hm =>
      have hs := step_eq_under h r s
      rw [hm] at hs
      rw [delivery_of_fail ha hm, run_of_active ha, runSteps_of_fail hs]
      rfl
  · obtain ⟨x, -, hrun⟩ := exists_run_of_not_active ha
    rw [delivery, hrun, hrun]
    rfl

end Reader

end IndexFeed.Database
