import IndexFeed.Database.Feed
import IndexFeed.Proofs.Database.Resumption
import IndexFeed.System.Memory

/-!
# Batches

A feed cuts the commands of a database into batches, and behind a full batch it looks whether the
document is about to close.  `Feed.next_spec` says what one batch takes from what its reader still
delivers, and the main statement is about all of them together: neither the size of the batches nor
that of the read buffer makes a difference to the commands or to the way the document ends.
-/

set_option autoImplicit false

namespace IndexFeed.Database

/-! ## Collecting -/

namespace Collector

/-- The well-formed commands among some objects, in order. -/
def wellFormed (os : List Json.Object) : List CompileCommand :=
  os.filterMap CompileCommand.ofObject?

@[simp] theorem wellFormed_nil : wellFormed [] = [] := rfl

theorem wellFormed_append (os ps : List Json.Object) :
    wellFormed (os ++ ps) = wellFormed os ++ wellFormed ps := List.filterMap_append ..

/-- An object adds the command that it describes, if it describes one. -/
theorem commands_take (c : Collector) (o : Json.Object) :
    (c.take o).commands = c.commands ++ wellFormed [o] := by
  unfold take wellFormed CompileCommand.ofObject?
  dsimp only
  split <;> simp_all

/-- Collecting keeps the well-formed commands in order, wherever the reader is halted. -/
theorem commands_after (c : Collector) (os : List Json.Object) :
    (handler.after c os).commands = c.commands ++ wellFormed os := by
  induction os generalizing c with
  | nil => simp [Handler.after]
  | cons o os ih =>
    have hrest := ih (c.take o)
    rw [commands_take, List.append_assoc, ← wellFormed_append] at hrest
    exact hrest

/-- A batch holds the well-formed commands among its objects. -/
theorem commands_batch (c : Collector) (limit : Option Nat) (os : List Json.Object) :
    (handler.after (c.begin limit) os).commands = wellFormed os := commands_after _ os

end Collector

/-! ## Closing the root array -/

namespace Reader

/-- Behind the root array there are no more objects. -/
theorem delivery_of_trailing {r : Reader} (ha : r.Active) (he : r.expect = .trailing) :
    r.delivery.2.2 = [] := by
  cases hm : step .note r none with
  | proceed r' found =>
    unfold step at hm
    rw [he] at hm
    split at hm <;> cases hm
  | halt r' found => exact absurd hm (step_note_ne_halt r r' found)
  | finish r' found => rw [delivery_of_finish ha hm]
  | fail e r' found => rw [delivery_of_fail ha hm]

/-- Where the root array is about to close, no object is left. -/
theorem delivery_of_nextClosesRoot {r : Reader} (h : r.nextClosesRoot.1 = .ok true) :
    r.delivery.2.2 = [] := by
  rcases r.nextClosesRoot_cases with hno | ⟨ha, he, hlook⟩
  · rw [hno] at h
    cases h
  · rcases ht : r.source.nextToken with ⟨token, source⟩
    rw [hlook, ht] at h
    rcases token with text | token
    · cases h
    · have hclose : token = some Octet.closeBracket := by simpa [closing] using h
      -- the bracket is the next token, so the step takes it
      have hm : step .note r none =
          .proceed (({ r with source } : Reader).takeFraming .trailing) none := by
        rcases he with he | he <;> simp [step, ht, hclose, he]
      rw [delivery_of_framing ha hm]
      exact delivery_of_trailing (active_of_proceed ha hm) rfl

end Reader

/-! ## What is left to deliver -/

/-- What a reader owes that has neither stopped nor can break: the objects it has still to deliver,
and the end behind them. -/
structure Reader.Owes (r : Reader) (os : List Json.Object) (ending : Except Error Outcome) :
    Prop where
  active : r.Active
  unbroken : r.source.failure = none
  objects : r.delivery.2.2 = os
  ends : r.delivery.1 = ending

namespace Reader.Owes

variable {σ : Type} {r : Reader} {os : List Json.Object} {ending : Except Error Outcome}

theorem of_view_eq {q : Reader} (ho : r.Owes os ending) (e : q.view = r.view) :
    q.Owes os ending := by
  obtain ⟨hx, hs⟩ := Reader.delivery_congr e
  exact ⟨Reader.active_of_view_eq e ho.active, (congrArg Reader.Place.failure e).trans ho.unbroken,
    hs.trans ho.objects, hx.trans ho.ends⟩

/-- A reader behind a halt owes the objects that the run has left. -/
theorem of_delivery {q : Reader} {left : List Json.Object} (ho : r.Owes os ending)
    (hd : q.delivery = (r.delivery.1, r.delivery.2.1, left)) (hc : q.constants = r.constants) :
    q.Owes left ending :=
  ⟨Reader.active_of_constants_eq hc ho.active,
    (congrArg (fun c => c.2.2) hc).trans ho.unbroken, congrArg (fun d => d.2.2) hd,
    (congrArg Prod.fst hd).trans ho.ends⟩

/-- Where no object is owed, a run comes to the end and hands over nothing. -/
theorem run_of_nil (ho : r.Owes [] ending) (h : Handler σ) (s : σ) :
    ∃ z, r.run h s = (ending, z, s) := by
  have hrun := Reader.run_spec h r s
  rw [ho.objects, ho.ends] at hrun
  exact ⟨_, hrun⟩

end Reader.Owes

/-! ## One batch -/

namespace Feed

open Collector (wellFormed)

/-- A run that does not halt is the whole batch. -/
theorem readBatch_of_ne_halted {b : Binding} {x : Except Error Outcome} {z : Reader} {c : Collector}
    (hrun : b.reader.run Collector.handler (b.collector.begin (some b.refill)) = (x, z, c))
    (hx : x ≠ .ok .halted) : readBatch b = (x, z, c) := by
  unfold readBatch
  rw [hrun]
  dsimp only
  split
  · exact absurd rfl hx
  · rfl

/-- Behind a halt nothing more is collected.  Either no object is left and the batch comes to the
end, or the batch stops there and the reader owes what is left. -/
theorem readBatch_of_halted {b : Binding} {z : Reader} {c : Collector} {left : List Json.Object}
    {ending : Except Error Outcome}
    (hrun : b.reader.run Collector.handler (b.collector.begin (some b.refill)) =
      (.ok .halted, z, c)) (hleft : z.Owes left ending) :
    (left = [] ∧ ∃ y, readBatch b = (ending, y, c)) ∨
      ∃ y, readBatch b = (.ok .halted, y, c) ∧ y.Owes left ending := by
  unfold readBatch
  rw [hrun]
  dsimp only
  split
  · rcases hlook : z.nextClosesRoot with ⟨answer, y⟩
    have hview : y.view = z.view := by
      have := z.view_nextClosesRoot
      rwa [hlook] at this
    have hleft' := hleft.of_view_eq hview
    rcases answer with e | _ | _
    · exact absurd (congrArg Prod.fst hlook) (Reader.nextClosesRoot_ne_error hleft.unbroken e)
    · exact .inr ⟨y, rfl, hleft'⟩
    · -- nothing is left, so the batch runs on to the end of the document
      have hnil : left = [] := by
        rw [← hleft.objects]
        exact Reader.delivery_of_nextClosesRoot (congrArg Prod.fst hlook)
      rw [hnil] at hleft'
      exact .inl ⟨hnil, hleft'.run_of_nil Collector.handler c⟩
  · exact .inr ⟨z, rfl, hleft⟩

/-- A batch hands the objects that are owed to the collector, and halts where it does, unless no
object is left there. -/
theorem readBatch_feed {b : Binding} {os : List Json.Object} {ending : Except Error Outcome}
    (ho : b.reader.Owes os ending) :
    match Collector.handler.feed (b.collector.begin (some b.refill)) os with
    | (c, none) => ∃ z, readBatch b = (ending, z, c)
    | (c, some left) => (left = [] ∧ ∃ z, readBatch b = (ending, z, c)) ∨
        ∃ z, readBatch b = (.ok .halted, z, c) ∧ z.Owes left ending := by
  have hrun := Reader.run_spec Collector.handler b.reader (b.collector.begin (some b.refill))
  rw [ho.objects, ho.ends] at hrun
  rcases hf : Collector.handler.feed (b.collector.begin (some b.refill)) os with ⟨c, _ | left⟩
  · rw [hf] at hrun
    exact ⟨_, readBatch_of_ne_halted hrun (ho.ends ▸ Reader.delivery_ne_halted _)⟩
  · rw [hf] at hrun
    obtain ⟨z, hz, hd, hc⟩ := hrun
    rw [← ho.ends] at hd
    exact readBatch_of_halted hz (ho.of_delivery hd hc)

/-- A batch takes the well-formed commands of all that is owed, with the end behind them, or of the
first objects, with the others left. -/
theorem readBatch_spec {b : Binding} {os : List Json.Object} {ending : Except Error Outcome}
    (ho : b.reader.Owes os ending) :
    (∃ z c, readBatch b = (ending, z, c) ∧ c.commands = wellFormed os) ∨
      ∃ pre left z c, os = pre ++ left ∧ readBatch b = (.ok .halted, z, c) ∧
        c.commands = wellFormed pre ∧ z.Owes left ending := by
  have hbatch := readBatch_feed ho
  rcases hf : Collector.handler.feed (b.collector.begin (some b.refill)) os with ⟨c, _ | left⟩
  · rw [hf] at hbatch
    obtain ⟨z, hz⟩ := hbatch
    obtain rfl := Handler.feed_none hf
    exact .inl ⟨z, _, hz, Collector.commands_batch ..⟩
  · rw [hf] at hbatch
    obtain ⟨pre, o, rfl, rfl, -⟩ := Handler.feed_some hf
    have hcommands := Collector.commands_batch b.collector (some b.refill) (pre ++ [o])
    rw [Handler.after_append] at hcommands
    rcases hbatch with ⟨rfl, z, hz⟩ | ⟨z, hz, hleft⟩
    · exact .inl ⟨z, _, hz, hcommands⟩
    · exact .inr ⟨pre ++ [o], left, z, _, by simp, hz, hcommands, hleft⟩

/-! ## All batches -/

/-- What a feed owes that has a database and has not come to the end of it. -/
def Owes (f : Feed) (os : List Json.Object) (ending : Except Error Outcome) : Prop :=
  f.exhausted = false ∧ ∃ b, f.binding = some b ∧ b.reader.Owes os ending

/-- The error of an end, if it is one. -/
def errorOf : Except Error Outcome → Option Error
  | .error e => some e
  | .ok _ => none

/-- The feed behind a batch that leaves a reader and a collector. -/
def behind (f : Feed) (b : Binding) (z : Reader) (c : Collector) (exhausted : Bool) : Feed :=
  { f with
    binding := some { b with reader := z, collector := { c with commands := [] } }
    exhausted }

theorem next_of_error {f : Feed} {b : Binding} {z : Reader} {c : Collector} {e : Error}
    (hb : f.binding = some b) (hex : f.exhausted = false) (hr : readBatch b = (.error e, z, c)) :
    ∃ events, f.next = (.error e, c.commands, f.behind b z c true, events) := by
  simp [next, hb, hex, hr, behind]

theorem next_of_ok {f : Feed} {b : Binding} {z : Reader} {c : Collector} {outcome : Outcome}
    (hb : f.binding = some b) (hex : f.exhausted = false) (hr : readBatch b = (.ok outcome, z, c)) :
    ∃ events, f.next =
      (.ok c.commands.length, c.commands, f.behind b z c (outcome == .finished), events) := by
  simp [next, hb, hex, hr, behind]

/-- The next batch is the last one, with the end of the document, or it takes some of what the feed
owes and the feed goes on. -/
theorem next_spec {f : Feed} {os : List Json.Object} {ending : Except Error Outcome}
    (ho : f.Owes os ending) :
    (∃ e g events, ending = .error e ∧ f.next = (.error e, wellFormed os, g, events)) ∨
      (∃ n g events, ending = .ok .finished ∧ f.next = (.ok n, wellFormed os, g, events) ∧
        g.exhausted = true) ∨
      ∃ n pre left g events, os = pre ++ left ∧
        f.next = (.ok n, wellFormed pre, g, events) ∧ g.Owes left ending := by
  obtain ⟨hex, b, hb, hreader⟩ := ho
  rcases readBatch_spec hreader with ⟨z, c, hr, hc⟩ | ⟨pre, left, z, c, hos, hr, hc, hleft⟩
  · rcases ending with e | _ | _
    · obtain ⟨events, hn⟩ := next_of_error hb hex hr
      exact .inl ⟨e, _, events, rfl, hc ▸ hn⟩
    · exact absurd hreader.ends (Reader.delivery_ne_halted _)
    · obtain ⟨events, hn⟩ := next_of_ok hb hex hr
      exact .inr (.inl ⟨_, _, events, rfl, hc ▸ hn, rfl⟩)
  · obtain ⟨events, hn⟩ := next_of_ok hb hex hr
    exact .inr (.inr ⟨_, pre, left, _, events, hos, hc ▸ hn, rfl, _, rfl, hleft⟩)

/-- All batches of a feed are the well-formed commands of what it owes, and they end as it says. -/
theorem drain_spec {f : Feed} {os : List Json.Object} {ending : Except Error Outcome}
    (ho : f.Owes os ending) : f.drain.1 = wellFormed os ∧ f.drain.2.1 = errorOf ending := by
  fun_induction drain f generalizing os with
  | case1 f e batch g events hn =>
    rcases next_spec ho with ⟨e', g', events', rfl, hn'⟩ | ⟨n, g', events', -, hn', -⟩ |
      ⟨n, pre, left, g', events', -, hn', -⟩
    · rw [hn] at hn'
      cases hn'
      exact ⟨rfl, rfl⟩
    · rw [hn] at hn'
      cases hn'
    · rw [hn] at hn'
      cases hn'
  | case2 f n batch g events hn hg =>
    rcases next_spec ho with ⟨e', g', events', -, hn'⟩ | ⟨n', g', events', rfl, hn', -⟩ |
      ⟨n', pre, left, g', events', -, hn', hleft⟩
    · rw [hn] at hn'
      cases hn'
    · rw [hn] at hn'
      cases hn'
      exact ⟨rfl, rfl⟩
    · rw [hn] at hn'
      cases hn'
      exact absurd hleft.1 (by simp [hg])
  | case3 f n batch g events hn hg more e later hd ih =>
    rcases next_spec ho with ⟨e', g', events', -, hn'⟩ | ⟨n', g', events', -, hn', hg'⟩ |
      ⟨n', pre, left, g', events', rfl, hn', hleft⟩
    · rw [hn] at hn'
      cases hn'
    · rw [hn] at hn'
      cases hn'
      exact absurd hg' hg
    · rw [hn] at hn'
      cases hn'
      obtain ⟨hmore, he⟩ := ih hleft
      rw [hd] at hmore he
      obtain rfl : more = wellFormed left := hmore
      exact ⟨(Collector.wellFormed_append pre left).symm, he⟩

/-- A fresh reader owes what a run over the whole text in one piece delivers. -/
theorem owes_ofBytes (d : Bytes) (buffer : Nat) :
    let single := Reader.run Handler.keepAll { source := .ofBytes d d.length } []
    ({ source := .ofBytes d buffer } : Reader).Owes single.2.2 single.1 := by
  obtain ⟨hx, hs⟩ := Reader.delivery_congr (Reader.view_ofBytes d buffer d.length)
  exact ⟨⟨rfl, rfl⟩, rfl, hs, hx⟩

/-- A feed without a database gets one: a reader that owes what a run over the whole content in one piece
delivers, and a collector that has dropped nothing. -/
theorem bind_spec {f : Feed} (hb : f.binding = none) (file : File) (refill : Nat) :
    let single :=
      Reader.run Handler.keepAll { source := .ofBytes file.content file.content.length } []
    ∃ b, f.bind file refill = .ok { f with binding := some b } ∧ b.refill = max refill 1 ∧
      b.collector.dropped = [] ∧ b.reader.Owes single.2.2 single.1 :=
  ⟨_, by rw [bind, hb], rfl, rfl, owes_ofBytes file.content f.buffer⟩

/-- **Neither batches nor buffers make a difference.** Whatever the size of its batches and of its
read buffer, for which the machine has the memory, a fresh feed of a database hands out one list of
commands and ends in one way.  The list is that of the well-formed commands among the objects of one run
that never halts, in order, and the end is the end of that run. -/
theorem drain_eq_single {m : Memory} (file : File) (buffer₁ buffer₂ : m.Buffer)
    (refill₁ refill₂ : Nat) :
    let drained := fun (buffer : m.Buffer) refill =>
      (({ buffer := buffer.size } : Feed).bind file refill).map fun f => (f.drain.1, f.drain.2.1)
    let single :=
      Reader.run Handler.keepAll { source := .ofBytes file.content file.content.length } []
    drained buffer₁ refill₁ = drained buffer₂ refill₂ ∧
      drained buffer₁ refill₁ = .ok (wellFormed single.2.2, errorOf single.1) := by
  intro drained single
  have hall : ∀ buffer refill,
      drained buffer refill = .ok (wellFormed single.2.2, errorOf single.1) := by
    intro buffer refill
    obtain ⟨b, hbind, -, -, howes⟩ := bind_spec (f := { buffer := buffer.size }) rfl file refill
    obtain ⟨hcommands, herror⟩ :=
      drain_spec (f := { buffer := buffer.size, binding := some b }) ⟨rfl, b, rfl, howes⟩
    simp only [drained, hbind, Except.map, hcommands, herror, single]
  exact ⟨(hall buffer₁ refill₁).trans (hall buffer₂ refill₂).symm, hall buffer₁ refill₁⟩

end Feed

end IndexFeed.Database
