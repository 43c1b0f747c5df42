import Mathlib.Logic.Function.Iterate
import IndexFeed.Proofs.Database.Calls

/-!
# Counting

A database can be counted before a feed gets it.  The pass that counts never halts and has a buffer
of its own; the feed is halted behind every full batch.  `Feed.drain_accounts` says that a feed
collects or drops every object once, `File.count_eq` what a count comes to and that it leaves the
file at its start, and the main statement that the two passes agree, however often the file has been
counted.
-/

set_option autoImplicit false

namespace IndexFeed.Database

/-! ## Objects collected and dropped -/

namespace Collector

theorem length_take (c : Collector) (o : Json.Object) :
    (c.take o).commands.length + (c.take o).dropped.length =
      c.commands.length + c.dropped.length + 1 := by
  unfold take
  dsimp only
  split
  · dsimp only
    rw [List.length_append, List.length_singleton]
    omega
  · dsimp only
    rw [List.length_append, List.length_singleton]
    omega

/-- Every object is collected or dropped. -/
theorem length_after (c : Collector) (os : List Json.Object) :
    (handler.after c os).commands.length + (handler.after c os).dropped.length =
      c.commands.length + c.dropped.length + os.length := by
  induction os generalizing c with
  | nil => rfl
  | cons o os ih =>
    have hrest := ih (c.take o)
    rw [length_take] at hrest
    rw [List.length_cons, show handler.after c (o :: os) = handler.after (c.take o) os from rfl,
      hrest]
    omega

end Collector

namespace Feed

/-- The feed behind all batches that are left. -/
def drained (f : Feed) : Feed :=
  match _h : f.next with
  | (.error _, _, g, _) => g
  | (.ok _, _, g, _) => if _hg : g.exhausted then g else drained g
termination_by f.left
decreasing_by exact next_lt ‹_› (Bool.eq_false_iff.2 ‹_›)

/-- How many objects have been dropped so far. -/
def dropped (f : Feed) : Nat :=
  match f.binding with
  | some b => b.collector.dropped.length
  | none => 0

variable {f g : Feed} {b : Binding} {os : List Json.Object} {ending : Except Error Outcome}

theorem dropped_of_binding (hb : f.binding = some b) :
    f.dropped = b.collector.dropped.length := by
  rw [dropped, hb]

theorem drained_of_error {e : Error} {batch : List CompileCommand} {events : List Event}
    (h : f.next = (.error e, batch, g, events)) : f.drained = g := by
  rw [drained]
  split <;> simp_all

theorem drained_of_last {n : Nat} {batch : List CompileCommand} {events : List Event}
    (h : f.next = (.ok n, batch, g, events)) (hg : g.exhausted = true) : f.drained = g := by
  rw [drained]
  split <;> simp_all

theorem drained_of_more {n : Nat} {batch : List CompileCommand} {events : List Event}
    (h : f.next = (.ok n, batch, g, events)) (hg : g.exhausted = false) :
    f.drained = g.drained := by
  rw [drained]
  split <;> simp_all

/-- The objects that one batch takes are in it or have been dropped. -/
theorem next_accounts (hb : f.binding = some b) (hex : f.exhausted = false) (hpos : 0 < b.refill)
    (ho : b.reader.Owes os ending) {result : Except Error Nat} {batch : List CompileCommand}
    {events : List Event} (hn : f.next = (result, batch, g, events)) :
    ∃ pre left, os = pre ++ left ∧ batch.length + g.dropped = f.dropped + pre.length ∧
      (left = [] ∧ g.exhausted = true ∨
        g.exhausted = false ∧ result = .ok batch.length ∧
          ∃ b', g.binding = some b' ∧ 0 < b'.refill ∧ b'.reader.Owes left ending) := by
  obtain ⟨pre, left, c, z, ended, result', events', hos, hc, -, hnext, hend⟩ :=
    next_takes hb hex hpos ho
  have hlength := Collector.length_after (b.collector.begin (some b.refill)) pre
  have hstart : (b.collector.begin (some b.refill)).commands.length +
      (b.collector.begin (some b.refill)).dropped.length = f.dropped := by
    rw [dropped_of_binding hb]
    exact Nat.zero_add _
  rw [← hc, hstart] at hlength
  rw [hn] at hnext
  cases hnext
  refine ⟨pre, left, hos, hlength, ?_⟩
  rcases hend with ⟨hleft, hended, -⟩ | ⟨hleft, hended, hresult, -⟩
  · exact .inl ⟨hleft, hended⟩
  · exact .inr ⟨hended, hresult, _, rfl, hpos, hleft⟩

/-- **A feed collects or drops every object once**, over all batches together. -/
theorem drain_accounts (hb : f.binding = some b) (hex : f.exhausted = false) (hpos : 0 < b.refill)
    (ho : b.reader.Owes os ending) :
    f.drain.1.length + f.drained.dropped = f.dropped + os.length := by
  fun_induction drain f generalizing b os with
  | case1 f e batch g events hn =>
    obtain ⟨pre, left, rfl, hcount, ⟨rfl, -⟩ | ⟨-, hresult, -⟩⟩ := next_accounts hb hex hpos ho hn
    · rw [drained_of_error hn, List.append_nil]
      exact hcount
    · cases hresult
  | case2 f n batch g events hn hg =>
    obtain ⟨pre, left, rfl, hcount, ⟨rfl, -⟩ | ⟨hended, -, -⟩⟩ := next_accounts hb hex hpos ho hn
    · rw [drained_of_last hn hg, List.append_nil]
      exact hcount
    · rw [hg] at hended
      cases hended
  | case3 f n batch g events hn hg more e later hd ih =>
    obtain ⟨pre, left, rfl, hcount, ⟨-, hended⟩ | ⟨hended, -, b', hb', hpos', hleft⟩⟩ :=
      next_accounts hb hex hpos ho hn
    · exact absurd hended hg
    · have hrest := ih hb' hended hpos' hleft
      rw [hd] at hrest
      dsimp only at hrest
      rw [drained_of_more hn hended, List.length_append, List.length_append]
      omega

end Feed

/-! ## Counts -/

/-- A handler that counts is handed all objects. -/
theorem Handler.feed_count (n : Nat) (os : List Json.Object) :
    Handler.count.feed n os = (n + os.length, none) := by
  induction os generalizing n with
  | nil => rfl
  | cons o os ih =>
    rw [feed_cons_of_more os rfl, List.length_cons, ← Nat.add_assoc, Nat.add_right_comm]
    exact ih (n + 1)

namespace File

@[simp] theorem rewind_rewind (f : File) : f.rewind.rewind = f.rewind := rfl

/-- A count finds the objects of one run that never halts, or the error that ends that run, and
leaves the file at its start. -/
theorem count_eq (f : File) :
    (∃ e, f.rewind.reading.1 = .error e ∧ f.count = (.error e, f.rewind)) ∨
      f.rewind.reading.1 = .ok .finished ∧ f.count =
        (.ok f.rewind.reading.2.2.length, { f.rewind with jobs := f.rewind.reading.2.2.length }) := by
  have howes := f.rewind.owes_reading countingBuffer
  have hrun := Reader.run_spec Handler.count
    { source := .ofBytes f.rewind.content countingBuffer } 0
  have hne : f.rewind.reading.1 ≠ .ok .halted := howes.ends ▸ Reader.delivery_ne_halted _
  rw [howes.objects, howes.ends, Handler.feed_count, Nat.zero_add] at hrun
  dsimp only at hrun
  rcases hreading : f.rewind.reading.1 with e | _ | _
  · rw [hreading] at hrun
    refine .inl ⟨e, rfl, ?_⟩
    rw [count, hrun]
    dsimp only
    rw [rewind_advance, rewind_rewind]
  · exact absurd hreading hne
  · rw [hreading] at hrun
    refine .inr ⟨rfl, ?_⟩
    rw [count, hrun]
    dsimp only
    rw [rewind_advance, rewind_rewind]

/-- Counts change nothing but the number of jobs of a file that stands at its start. -/
theorem iterate_count (path : String) (d : Bytes) (jobs k : Nat) :
    ∃ n, (fun f : File => f.count.2)^[k] { path, content := d, jobs } =
      { path, content := d, jobs := n } := by
  induction k with
  | zero => exact ⟨jobs, rfl⟩
  | succ k ih =>
    obtain ⟨n, hn⟩ := ih
    rw [Function.iterate_succ_apply', hn]
    rcases count_eq { path, content := d, jobs := n } with ⟨e, -, hcount⟩ | ⟨-, hcount⟩
    · rw [hcount]
      exact ⟨n, rfl⟩
    · rw [hcount]
      exact ⟨_, rfl⟩

/-- **Counting agrees with handing out, and does not disturb it.** Take a file that stands at its
start and has been counted any number of times, and a feed that gets it before the first count, with a
read buffer that the machine has the memory for.

* A count finds `n` objects if and only if the feed comes to the end of the document without an
  error, and then `n` is the number of commands that it hands out and of objects that it drops; it
  fails with an error if and only if that error ends the feed.
* The feed that gets the counted file is the one that gets it uncounted.
* A count that succeeds makes its number the number of jobs; a count changes nothing else. -/
theorem count_eq_drain {m : Memory} (path : String) (d : Bytes) (jobs : Nat) (buffer : m.Buffer)
    (refill k : Nat) :
    let fresh : File := { path, content := d, jobs }
    let file := (fun f : File => f.count.2)^[k] fresh
    ∃ feed, ({ buffer := buffer.size } : Feed).bind fresh refill = .ok feed ∧
      (∀ n, file.count.1 = .ok n ↔
        feed.drain.2.1 = none ∧ n = feed.drain.1.length + feed.drained.dropped) ∧
      (∀ e, file.count.1 = .error e ↔ feed.drain.2.1 = some e) ∧
      ({ buffer := buffer.size } : Feed).bind file refill = .ok feed ∧
      file.count.2 = match file.count.1 with
        | .ok n => { file with jobs := n }
        | .error _ => file := by
  intro fresh file
  obtain ⟨jobs', hfile⟩ : ∃ n, file = { path, content := d, jobs := n } :=
    iterate_count path d jobs k
  obtain ⟨start, hbind, hrefill, hdropped, howes⟩ :=
    Feed.bind_spec (f := { buffer := buffer.size }) rfl fresh refill
  let feed : Feed := { buffer := buffer.size, binding := some start }
  have hpos : 0 < start.refill := by omega
  have haccounts := Feed.drain_accounts (f := feed) rfl rfl hpos howes
  obtain ⟨-, herror⟩ := Feed.drain_spec (f := feed) ⟨rfl, _, rfl, howes⟩
  have hnone : feed.dropped = 0 := congrArg List.length hdropped
  rw [hnone, Nat.zero_add] at haccounts
  -- the number of jobs is no part of what the feed gets
  have hbind' : ({ buffer := buffer.size } : Feed).bind { path, content := d, jobs := jobs' } refill =
      .ok feed := hbind
  refine ⟨feed, hbind, ?_⟩
  rw [hfile]
  rcases count_eq { path, content := d, jobs := jobs' } with ⟨e, hreading, hcount⟩ | ⟨hreading, hcount⟩
  · have hends : feed.drain.2.1 = some e := herror.trans (congrArg Feed.errorOf hreading)
    rw [hcount, hends]
    refine ⟨?_, ?_, hbind', rfl⟩
    · intro n
      simp
    · intro e'
      simp
  · have hends : feed.drain.2.1 = none := herror.trans (congrArg Feed.errorOf hreading)
    rw [hcount, hends, haccounts]
    refine ⟨?_, ?_, hbind', rfl⟩
    · intro n
      simp only [Except.ok.injEq, true_and]
      exact eq_comm
    · intro e'
      simp

end File

end IndexFeed.Database
