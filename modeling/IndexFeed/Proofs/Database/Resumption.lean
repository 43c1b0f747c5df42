import IndexFeed.Proofs.Database.Delivery

/-!
# Runs that are resumed

A handler may halt a run behind any object, and whoever drives the reader may look for the end of
the root array before the next run.  `Reader.resume` runs again after every halt, with any number
of such looks in between.  Its main statement is that none of this can be told from the objects
that the handler is handed or from how the document ends: both are those of one run that never
halts, over the same octets in one piece.
-/

set_option autoImplicit false

namespace IndexFeed.Database

variable {σ : Type}

/-! ## Handlers with a record -/

namespace Handler

/-- A handler together with a record of the objects that it has been handed. -/
def recorded (h : Handler σ) : Handler (σ × List Json.Object) := fun (s, seen) o =>
  (((h s o).1, seen ++ [o]), (h s o).2)

theorem after_recorded (h : Handler σ) (s : σ) (seen os : List Json.Object) :
    h.recorded.after (s, seen) os = (h.after s os, seen ++ os) := by
  induction os generalizing s seen with
  | nil => simp [after]
  | cons o os ih => simpa [after, recorded] using ih (h s o).1 (seen ++ [o])

end Handler

namespace Reader

/-! ## Looks in between -/

/-- Looks for the end of the root array so many times, whatever each look says. -/
def look : Nat → Reader → Reader
  | 0, r => r
  | n + 1, r => look n r.nextClosesRoot.2

@[simp] theorem view_look (n : Nat) (r : Reader) : (look n r).view = r.view := by
  induction n generalizing r with
  | zero => rfl
  | succ n ih => rw [look, ih, view_nextClosesRoot]

theorem length_look_le (n : Nat) (r : Reader) :
    (look n r).source.rest.length ≤ r.source.rest.length := by
  induction n generalizing r with
  | zero => exact Nat.le_refl _
  | succ n ih => exact Nat.le_trans (ih _) (length_nextClosesRoot_le r)

/-! ## Resuming -/

/-- Runs again after every halt, until the document ends or an error turns up.  In front of run
number `k` it looks `looks k` times for the end of the root array. -/
def resume (h : Handler σ) (looks : Nat → Nat) (k : Nat) (r : Reader) (s : σ) :
    Except Error Outcome × Reader × σ :=
  match _e : (look (looks k) r).run h s with
  | (.ok .halted, r', s') => resume h looks (k + 1) r' s'
  | ended => ended
termination_by r.source.rest.length
decreasing_by exact Nat.lt_of_lt_of_le (run_halted_lt ‹_›) (length_look_le _ r)

/-- Readers with one view deliver the same objects and the same end. -/
theorem delivery_congr {r q : Reader} (e : r.view = q.view) :
    r.delivery.1 = q.delivery.1 ∧ r.delivery.2.2 = q.delivery.2.2 := by
  obtain ⟨hx, -, hs⟩ := run_congr .keepAll e []
  exact ⟨hx, hs⟩

/-- A reader that is resumed until it ends hands its handler the objects of its delivery, and ends
as the delivery does. -/
theorem resume_spec (h : Handler σ) (looks : Nat → Nat) (k : Nat) (r : Reader) (s : σ) :
    (resume h looks k r s).1 = r.delivery.1 ∧
      (resume h looks k r s).2.2 = h.after s r.delivery.2.2 := by
  fun_induction resume h looks k r s with
  | case1 k r s r' s' e ih =>
    have hlook := delivery_congr (view_look (looks k) r)
    have hrun := run_spec h (look (looks k) r) s
    rw [e] at hrun
    cases hf : h.feed s (look (looks k) r).delivery.2.2 with
    | mk t left =>
      rw [hf] at hrun
      cases left with
      | none =>
        -- a run that goes through all objects does not end with a halt
        obtain ⟨hx, -⟩ := Prod.mk.inj hrun
        exact absurd hx.symm (delivery_ne_halted _)
      | some left =>
        obtain ⟨r₁, hr, hd, -⟩ := hrun
        cases hr
        obtain ⟨pre, o, hos, rfl, -⟩ := Handler.feed_some hf
        rw [hd, hlook.1] at ih
        rw [← hlook.2, hos, Handler.after_append]
        exact ih
  | case2 k r s hne =>
    have hlook := delivery_congr (view_look (looks k) r)
    have hrun := run_spec h (look (looks k) r) s
    cases hf : h.feed s (look (looks k) r).delivery.2.2 with
    | mk t left =>
      rw [hf] at hrun
      cases left with
      | none =>
        rw [hrun, ← hlook.1, ← hlook.2, ← Handler.feed_none hf]
        exact ⟨rfl, rfl⟩
      | some left =>
        obtain ⟨r₁, hr, -⟩ := hrun
        exact (hne r₁ t hr).elim

/-- Fresh readers of the same octets have one view, whatever their buffers hold. -/
theorem view_ofBytes (d : Bytes) (m n : Nat) :
    ({ source := .ofBytes d m } : Reader).view = ({ source := .ofBytes d n } : Reader).view := rfl

/-- **Halts, looks and buffers cannot be told from the outcome.** Take any handler, any number of
looks for the end of the root array in front of each run and any buffer.  Running again after
every halt hands the handler the objects of one run that never halts, over the octets in one
piece and without a look, each of them once and in order, and ends as that run ends: with the
document or with the same error. -/
theorem resume_eq_run (h : Handler σ) (s : σ) (looks : Nat → Nat) (d : Bytes)
    (capacity : Nat) :
    let resumed := resume h.recorded looks 0 { source := .ofBytes d capacity } (s, [])
    let single := run Handler.keepAll { source := .ofBytes d d.length } []
    resumed.1 = single.1 ∧ resumed.2.2 = (h.after s single.2.2, single.2.2) ∧
      resumed.1 ≠ .ok .halted := by
  intro resumed single
  obtain ⟨hx, hs⟩ := resume_spec h.recorded looks 0 { source := .ofBytes d capacity } (s, [])
  obtain ⟨hx', hs'⟩ := delivery_congr (view_ofBytes d capacity d.length)
  have hend : resumed.1 = single.1 := hx.trans hx'
  refine ⟨hend, ?_, ?_⟩
  · rw [Handler.after_recorded, List.nil_append, hs'] at hs
    exact hs
  · rw [hend]
    exact delivery_ne_halted _

end Reader

end IndexFeed.Database
