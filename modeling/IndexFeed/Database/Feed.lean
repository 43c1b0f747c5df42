import IndexFeed.Database.Collector
import IndexFeed.Database.File

/-!
# Feeds

A feed hands out the commands of a database in batches.  Each batch goes on where the one before
stopped, so the content is read once however many batches there are.
-/

set_option autoImplicit false

namespace IndexFeed.Database

/-- A database that a feed reads. -/
structure Binding where
  reader : Reader
  collector : Collector
  /-- the most commands in one batch -/
  refill : Nat
  deriving Repr

/-- A source of batches. -/
structure Feed where
  /-- the size of the read buffer, for which there has to be memory -/
  buffer : Nat := 65536
  binding : Option Binding := none
  /-- the document has ended or failed -/
  exhausted : Bool := false
  deriving Repr

namespace Feed

/-- Gives the feed its database, once.  A batch holds at least one command.  The read buffer is taken for
granted here: it belongs to a machine that has the memory for it. -/
def bind (f : Feed) (file : File) (refill : Nat) : Except Error Feed :=
  match f.binding with
  | some _ => .error .alreadyBound
  | none =>
    let refill := max refill 1
    .ok { f with
      binding := some {
        reader := { source := .ofBytes file.content f.buffer }
        collector := { limit := some refill }
        refill } }

/-- Reads until a batch is full, the document ends or an error turns up.  Behind a full batch the
closing bracket is looked for, so that the last batch is known to be the last. -/
def readBatch (b : Binding) : Except Error Outcome × Reader × Collector :=
  let (result, reader, collector) :=
    b.reader.run Collector.handler (b.collector.begin (some b.refill))
  match result with
  | .ok .halted =>
    if collector.isFull then
      match reader.nextClosesRoot with
      | (.ok true, reader) => reader.run Collector.handler collector
      | (.ok false, reader) => (.ok .halted, reader, collector)
      | (.error e, reader) => (.error e, reader, collector)
    else (.ok .halted, reader, collector)
  | result => (result, reader, collector)

/-- The next batch: how many commands there are or the error, and the commands read in any case. -/
def next (f : Feed) : Except Error Nat × List CompileCommand × Feed × List Event :=
  match f.binding with
  | none => (.error .unbound, [], f, [])
  | some b =>
    if f.exhausted then (.ok 0, [], f, [])
    else
      let (result, reader, collector) := readBatch b
      let batch := collector.commands
      let drops := (collector.dropped.drop b.collector.dropped.length).map Event.droppedEntry
      let binding := some { b with reader, collector := { collector with commands := [] } }
      match result with
      | .error e =>
        (.error e, batch, { f with binding, exhausted := true },
          drops ++ [.parseFailed batch.length e.message])
      | .ok outcome =>
        let exhausted := outcome == .finished
        (.ok batch.length, batch, { f with binding, exhausted },
          drops ++
            [.parsedBatch batch.length collector.dropped.length reader.offset exhausted])

/-! ## All batches -/

/-- The octets that the feed has still to read. -/
def left (f : Feed) : Nat :=
  match f.binding with
  | some b => b.reader.source.rest.length
  | none => 0

theorem readBatch_halted_lt {b : Binding} {r : Reader} {c : Collector}
    (h : readBatch b = (.ok .halted, r, c)) :
    r.source.rest.length < b.reader.source.rest.length := by
  unfold readBatch at h
  rcases hr : b.reader.run Collector.handler (b.collector.begin (some b.refill)) with
    ⟨result, reader, collector⟩
  rw [hr] at h
  dsimp only at h
  split at h
  · have hlt := Reader.run_halted_lt hr
    split at h
    · split at h
      · next hclose =>
        exact Nat.lt_trans (Reader.run_halted_lt h)
          (Nat.lt_of_le_of_lt (Reader.nextClosesRoot_le hclose) hlt)
      · next hclose =>
        cases h
        exact Nat.lt_of_le_of_lt (Reader.nextClosesRoot_le hclose) hlt
      · cases h
    · cases h
      exact hlt
  · cases h
    exact Reader.run_halted_lt hr

/-- A batch that is not the last one takes at least one octet. -/
theorem next_lt {f g : Feed} {n : Nat} {batch : List CompileCommand} {events : List Event}
    (h : f.next = (.ok n, batch, g, events)) (hg : g.exhausted = false) : g.left < f.left := by
  unfold next at h
  split at h
  · cases h
  · next b hb =>
    split at h
    · next hf =>
      cases h
      rw [hf] at hg
      cases hg
    · rcases hr : readBatch b with ⟨result, reader, collector⟩
      rw [hr] at h
      dsimp only at h
      split at h
      · cases h
      · next outcome =>
        cases h
        cases outcome with
        | halted =>
          simp only [left, hb]
          exact readBatch_halted_lt hr
        | finished => cases hg

/-- All batches that are left, as one list, the error that ends them if one does, and the events on
the way. -/
def drain (f : Feed) : List CompileCommand × Option Error × List Event :=
  match _h : f.next with
  | (.error e, batch, _, events) => (batch, some e, events)
  | (.ok _, batch, g, events) =>
    if _hg : g.exhausted then (batch, none, events)
    else
      let (more, e, later) := drain g
      (batch ++ more, e, events ++ later)
termination_by f.left
decreasing_by exact next_lt ‹_› (Bool.eq_false_iff.2 ‹_›)

end Feed

end IndexFeed.Database
