import IndexFeed.Proofs.Database.Batching

/-!
# Calls on a feed

Whoever uses a feed gives it a database and asks it for batches, in any order and as often as it
likes.  `Feed.call` is one call, with the list that a batch is put behind, and `Feed.calls` is any
number of them.  What every call preserves is `Feed.Inv`: a feed that has a database has handed out
the well-formed commands among the first objects of it, and unless it is exhausted its reader owes
the others.  From that follows what a call comes to, whatever calls came before it.
-/

set_option autoImplicit false

namespace IndexFeed.Database

open Collector (wellFormed)

/-! ## Full batches -/

namespace Collector

@[simp] theorem limit_take (c : Collector) (o : Json.Object) : (c.take o).limit = c.limit := by
  unfold take
  dsimp only
  split <;> rfl

theorem length_commands_take_le (c : Collector) (o : Json.Object) :
    (c.take o).commands.length ≤ c.commands.length + 1 := by
  unfold take
  dsimp only
  split
  · exact Nat.le_of_eq (List.length_append ..)
  · exact Nat.le_succ _

theorem isFull_eq {c : Collector} {n : Nat} (h : c.limit = some n) :
    c.isFull = decide (n ≤ c.commands.length) := by
  rw [isFull, h]

/-- A batch with room for more is halted where it has just become full, and only there. -/
theorem length_feed {c : Collector} {n : Nat} (hlimit : c.limit = some n)
    (hroom : c.commands.length < n) (os : List Json.Object) :
    match handler.feed c os with
    | (t, none) => t.commands.length < n
    | (t, some _) => t.commands.length = n := by
  induction os generalizing c with
  | nil => exact hroom
  | cons o os ih =>
    have hlimit' : (c.take o).limit = some n := (limit_take c o).trans hlimit
    have hle := length_commands_take_le c o
    have hfull := isFull_eq hlimit'
    cases hm : (c.take o).isFull with
    | false =>
      rw [Handler.feed_cons_of_more os (show (handler c o).2 = true by simp [handler, hm])]
      rw [hm] at hfull
      exact ih hlimit' (Nat.lt_of_not_le (of_decide_eq_false hfull.symm))
    | true =>
      rw [Handler.feed_cons_of_halt os (show (handler c o).2 = false by simp [handler, hm])]
      rw [hm] at hfull
      have hge := of_decide_eq_true hfull.symm
      show (c.take o).commands.length = n
      omega

end Collector

namespace Feed

/-! ## What a batch takes -/

variable {f g : Feed} {b : Binding} {os : List Json.Object} {ending : Except Error Outcome}

/-- The number that a batch reports which comes to the end of the document. -/
theorem count_of_ended {n m : Nat} (h : (ending.map fun _ => n) = .ok m) : m = n := by
  cases ending with
  | error e => cases h
  | ok outcome => exact (Except.ok.inj h).symm

theorem error_of_ended {n : Nat} {e : Error} (h : (ending.map fun _ => n) = .error e) :
    ending = .error e := by
  cases ending with
  | error e' => exact congrArg Except.error (Except.error.inj h)
  | ok outcome => cases h

/-- A batch that comes to the end of the document. -/
theorem next_of_ended {z : Reader} {c : Collector} (hb : f.binding = some b)
    (hex : f.exhausted = false) (hr : readBatch b = (ending, z, c)) (hne : ending ≠ .ok .halted) :
    ∃ events, f.next =
      (ending.map fun _ => c.commands.length, c.commands, f.behind b z c true, events) := by
  rcases ending with e | _ | _
  · exact next_of_error hb hex hr
  · exact absurd rfl hne
  · exact next_of_ok hb hex hr

/-- The next batch of a feed that owes objects takes the first of them and collects no more commands
than a batch holds.  Either they are all that was owed and the batch comes to the end behind them, or
the batch is full and the feed owes the others. -/
theorem next_takes (hb : f.binding = some b) (hex : f.exhausted = false) (hpos : 0 < b.refill)
    (ho : b.reader.Owes os ending) :
    ∃ pre left c z ended result events, os = pre ++ left ∧
      c = Collector.handler.after (b.collector.begin (some b.refill)) pre ∧
      c.commands.length ≤ b.refill ∧
      f.next = (result, c.commands, f.behind b z c ended, events) ∧
      (left = [] ∧ ended = true ∧ result = ending.map (fun _ => c.commands.length) ∨
        z.Owes left ending ∧ ended = false ∧ result = .ok c.commands.length ∧
          c.commands.length = b.refill) := by
  have hne : ending ≠ .ok .halted := ho.ends ▸ Reader.delivery_ne_halted _
  have hbatch := readBatch_feed ho
  have hlength := Collector.length_feed (c := b.collector.begin (some b.refill)) rfl hpos os
  rcases hf : Collector.handler.feed (b.collector.begin (some b.refill)) os with ⟨c, _ | left⟩
  · rw [hf] at hbatch hlength
    obtain ⟨z, hz⟩ := hbatch
    obtain ⟨events, hnext⟩ := next_of_ended hb hex hz hne
    exact ⟨os, [], c, z, true, _, events, (List.append_nil os).symm, Handler.feed_none hf,
      Nat.le_of_lt hlength, hnext, .inl ⟨rfl, rfl, rfl⟩⟩
  · rw [hf] at hbatch hlength
    obtain ⟨pre, o, hos, hc, -⟩ := Handler.feed_some hf
    have hos' : os = (pre ++ [o]) ++ left := by rw [hos, List.append_assoc, List.singleton_append]
    have hc' : c = Collector.handler.after (b.collector.begin (some b.refill)) (pre ++ [o]) := by
      rw [Handler.after_append, hc]
      rfl
    rcases hbatch with ⟨rfl, z, hz⟩ | ⟨z, hz, hleft⟩
    · obtain ⟨events, hnext⟩ := next_of_ended hb hex hz hne
      exact ⟨pre ++ [o], [], c, z, true, _, events, hos', hc', Nat.le_of_eq hlength, hnext,
        .inl ⟨rfl, rfl, rfl⟩⟩
    · obtain ⟨events, hnext⟩ := next_of_ok hb hex hz
      exact ⟨pre ++ [o], left, c, z, false, _, events, hos', hc', Nat.le_of_eq hlength, hnext,
        .inr ⟨hleft, rfl, rfl, hlength⟩⟩

end Feed

/-! ## Calls -/

/-- A call on a feed. -/
inductive Call where
  /-- gives it a database and the number of commands in a batch -/
  | bind (file : File) (refill : Nat)
  /-- asks for the next batch, to be put behind the commands of a list -/
  | next (out : List CompileCommand)
  deriving DecidableEq, Repr

/-- What comes back from a call. -/
inductive Answer where
  | bound (result : Except Error Unit)
  /-- how many commands there are or the error, the list behind the call, and the events -/
  | batch (result : Except Error Nat) (out : List CompileCommand) (events : List Event)
  deriving Repr

namespace Call

/-- The database that a call gives, and the number of commands in a batch. -/
def given : Call → Option (File × Nat)
  | .bind file refill => some (file, refill)
  | .next _ => none

/-- The commands that a call has appended. -/
def appended : Call → Answer → List CompileCommand
  | .next out, .batch _ out' _ => out'.drop out.length
  | _, _ => []

/-- The database that is given first. -/
def firstGiven (cs : List Call) : Option (File × Nat) := cs.findSome? given

/-- The commands that calls have appended, in order. -/
def allAppended (cs : List Call) (as : List Answer) : List CompileCommand :=
  (cs.zipWith appended as).flatten

theorem firstGiven_cons (c : Call) (cs : List Call) :
    firstGiven (c :: cs) = c.given.or (firstGiven cs) := by
  rw [firstGiven, List.findSome?_cons]
  cases c.given <;> rfl

theorem allAppended_cons (c : Call) (cs : List Call) (a : Answer) (as : List Answer) :
    allAppended (c :: cs) (a :: as) = c.appended a ++ allAppended cs as := rfl

end Call

/-- What one run that never halts makes of the content of a file, in one piece. -/
def File.reading (file : File) : Except Error Outcome × Reader × List Json.Object :=
  Reader.run Handler.keepAll { source := .ofBytes file.content file.content.length } []

theorem File.owes_reading (file : File) (buffer : Nat) :
    ({ source := .ofBytes file.content buffer } : Reader).Owes file.reading.2.2 file.reading.1 :=
  Feed.owes_ofBytes file.content buffer

namespace Feed

variable {f g : Feed} {given : Option (File × Nat)} {new : List CompileCommand} {file : File}
  {refill : Nat}

/-- What a call comes to, and the feed behind it.  A call that fails leaves the feed as it is. -/
def call (f : Feed) : Call → Answer × Feed
  | .bind file refill =>
    match f.bind file refill with
    | .ok g => (.bound (.ok ()), g)
    | .error e => (.bound (.error e), f)
  | .next out =>
    let (result, batch, g, events) := f.next
    (.batch result (out ++ batch) events, g)

/-- What calls come to, one behind the other, and the feed behind them. -/
def calls (f : Feed) : List Call → List Answer × Feed
  | [] => ([], f)
  | c :: cs => ((f.call c).1 :: ((f.call c).2.calls cs).1, ((f.call c).2.calls cs).2)

/-- A call that leaves the feed as it is might as well not have been made. -/
theorem calls_cons_of_same {c : Call} {a : Answer} (h : f.call c = (a, f)) (later : List Call) :
    f.calls (c :: later) = (a :: (f.calls later).1, (f.calls later).2) := by
  rw [calls, h]

theorem call_next {result : Except Error Nat} {batch : List CompileCommand} {events : List Event}
    (h : f.next = (result, batch, g, events)) (out : List CompileCommand) :
    f.call (.next out) = (.batch result (out ++ batch) events, g) := by
  rw [call, h]

theorem call_next_of_unbound (hb : f.binding = none) (out : List CompileCommand) :
    f.call (.next out) = (.batch (.error .unbound) out [], f) := by
  rw [call_next (by rw [next, hb]), List.append_nil]

theorem call_next_of_exhausted {b : Binding} (hb : f.binding = some b) (hex : f.exhausted = true)
    (out : List CompileCommand) : f.call (.next out) = (.batch (.ok 0) out [], f) := by
  have hnext : f.next = (.ok 0, [], f, []) := by simp [next, hb, hex]
  rw [call_next hnext, List.append_nil]

theorem call_bind_of_bound {b : Binding} (hb : f.binding = some b) (file : File) (refill : Nat) :
    f.call (.bind file refill) = (.bound (.error .alreadyBound), f) := by
  simp [call, bind, hb]

/-- An exhausted feed stays as it is. -/
theorem calls_of_exhausted {b : Binding} (hb : f.binding = some b) (hex : f.exhausted = true)
    (cs : List Call) : (f.calls cs).2 = f := by
  induction cs with
  | nil => rfl
  | cons c cs ih =>
    cases c with
    | bind file refill =>
      rw [calls_cons_of_same (call_bind_of_bound hb file refill)]
      exact ih
    | next out =>
      rw [calls_cons_of_same (call_next_of_exhausted hb hex out)]
      exact ih

/-! ## The invariant -/

/-- What the calls so far have made of a feed: `given` is the database that it has, with the number
of commands in a batch, and `new` are the commands that it has handed out. -/
def Inv (f : Feed) (given : Option (File × Nat)) (new : List CompileCommand) : Prop :=
  match given with
  | none => f.binding = none ∧ f.exhausted = false ∧ new = []
  | some (file, refill) => ∃ b, f.binding = some b ∧ b.refill = max refill 1 ∧
      (f.exhausted = false → ∃ taken left, file.reading.2.2 = taken ++ left ∧
        new = wellFormed taken ∧ b.reader.Owes left file.reading.1)

/-- What a call for a batch comes to, in a feed of batches of at most `limit` commands from a file.
The commands in `before` are those that the calls before it have appended. -/
structure Contract (f : Feed) (file : File) (limit : Nat) (before new : List CompileCommand)
    (result : Except Error Nat) (g : Feed) : Prop where
  length_le : new.length ≤ limit
  /-- a result is the number of new commands -/
  counts : ∀ n, result = .ok n → n = new.length
  /-- a batch that is not full is the last one -/
  last : ∀ n, result = .ok n → n < limit → g.exhausted = true
  /-- an error is the one that ends the document, and the new commands are all in front of it that
  no call before has appended -/
  failed : ∀ e, result = .error e →
    g.exhausted = true ∧ file.reading.1 = .error e ∧ before ++ new = wellFormed file.reading.2.2
  /-- behind the end there is nothing -/
  spent : f.exhausted = true → result = .ok 0 ∧ new = [] ∧ g = f

/-- **What a call for a batch comes to** in a feed that has a database, and that it preserves the
invariant. -/
theorem Inv.next (h : f.Inv (some (file, refill)) new) (out : List CompileCommand) :
    ∃ result more events g, f.call (.next out) = (.batch result (out ++ more) events, g) ∧
      Contract f file (max refill 1) new more result g ∧
      g.Inv (some (file, refill)) (new ++ more) := by
  obtain ⟨b, hb, hrefill, howes⟩ := h
  cases hex : f.exhausted with
  | true =>
    refine ⟨.ok 0, [], [], f, ?_, ?_, b, hb, hrefill, ?_⟩
    · rw [List.append_nil]
      exact call_next_of_exhausted hb hex out
    · exact ⟨Nat.zero_le _, fun n hn => (Except.ok.inj hn).symm, fun _ _ _ => hex, nofun,
        fun _ => ⟨rfl, rfl, rfl⟩⟩
    · intro hno
      rw [hex] at hno
      cases hno
  | false =>
    obtain ⟨taken, left, hos, rfl, ho⟩ := howes hex
    have hpos : 0 < b.refill := by omega
    obtain ⟨pre, rest, c, z, ended, result, events, rfl, hc, hle, hnext, hend⟩ :=
      next_takes hb hex hpos ho
    have hcommands : c.commands = wellFormed pre := by
      rw [hc, Collector.commands_batch]
    refine ⟨result, c.commands, events, f.behind b z c ended, call_next hnext out, ?_, ?_⟩
    · refine ⟨hrefill ▸ hle, ?_, ?_, ?_, ?_⟩
      · rintro n rfl
        rcases hend with ⟨-, -, hresult⟩ | ⟨-, -, hresult, -⟩
        · exact count_of_ended hresult.symm
        · exact Except.ok.inj hresult
      · rintro n rfl hlt
        rcases hend with ⟨-, rfl, -⟩ | ⟨-, -, hresult, hfull⟩
        · rfl
        · have := Except.ok.inj hresult
          omega
      · rintro e rfl
        rcases hend with ⟨rfl, rfl, hresult⟩ | ⟨-, -, hresult, -⟩
        · refine ⟨rfl, error_of_ended hresult.symm, ?_⟩
          rw [hos, hcommands, List.append_nil, Collector.wellFormed_append]
        · cases hresult
      · intro hyes
        rw [hex] at hyes
        cases hyes
    · refine ⟨_, rfl, hrefill, ?_⟩
      intro hno
      rcases hend with ⟨-, rfl, -⟩ | ⟨hleft, -, -, -⟩
      · cases hno
      · exact ⟨taken ++ pre, rest, by rw [hos, List.append_assoc],
          by rw [hcommands, Collector.wellFormed_append], hleft⟩

theorem inv_of_bind (hb : f.binding = none) (file : File)
    (refill : Nat) :
    ∃ g, f.call (.bind file refill) = (.bound (.ok ()), g) ∧ g.Inv (some (file, refill)) [] := by
  obtain ⟨b, hbind, hrefill, -, howes⟩ := bind_spec hb file refill
  refine ⟨_, by rw [call, hbind], b, rfl, hrefill, ?_⟩
  intro _
  exact ⟨[], file.reading.2.2, rfl, rfl, howes⟩

/-- **Every call preserves the invariant.** -/
theorem Inv.call (h : f.Inv given new) (c : Call) :
    (f.call c).2.Inv (given.or c.given) (new ++ c.appended (f.call c).1) := by
  cases given with
  | none =>
    obtain ⟨hb, hex, rfl⟩ := h
    cases c with
    | bind file refill =>
      obtain ⟨g, hcall, hg⟩ := inv_of_bind hb file refill
      rw [hcall]
      exact hg
    | next out =>
      rw [call_next_of_unbound hb out]
      refine ⟨hb, hex, ?_⟩
      simp only [Call.appended, List.drop_length, List.append_nil]
  | some entry =>
    obtain ⟨file, refill⟩ := entry
    cases c with
    | bind file' refill' =>
      have h' := h
      obtain ⟨b, hb, -⟩ := h
      rw [call_bind_of_bound hb file' refill',
        show Call.appended (.bind file' refill') _ = [] from rfl, List.append_nil]
      exact h'
    | next out =>
      obtain ⟨result, more, events, g, hcall, -, hg⟩ := h.next out
      rw [hcall, Call.appended, List.drop_left]
      exact hg

/-- What every call preserves, any number of them do. -/
theorem Inv.calls (h : f.Inv given new) (cs : List Call) :
    (f.calls cs).2.Inv (given.or (Call.firstGiven cs))
      (new ++ Call.allAppended cs (f.calls cs).1) := by
  induction cs generalizing f given new with
  | nil =>
    rw [show Call.firstGiven [] = none from rfl, Option.or_none,
      show Call.allAppended [] _ = [] from rfl, List.append_nil]
    exact h
  | cons c cs ih =>
    have hrest := ih (h.call c)
    rw [Option.or_assoc, ← Call.firstGiven_cons, List.append_assoc, ← Call.allAppended_cons] at hrest
    exact hrest

/-! ## Every call, whatever came before it -/

/-- **What calls on a feed come to.** Take a fresh feed, with a read buffer that the machine has the
memory for, and any calls `before`.

* As long as none of them has given a database, a call for a batch fails and appends nothing, and
  whatever calls follow come to what they come to without it; a database is accepted.
* From then on, one more database is refused, and whatever calls follow come to what they come to
  without it.  A call for a batch leaves what is in the list and puts new commands behind it: as many
  as it says, never more than a batch holds, and fewer only if it is the last one.  With an error,
  which is the one that ends the document, come the commands that have been read in front of it, and
  the feed is exhausted.  Once the feed is exhausted no call changes it, and a call for a batch
  brings nothing. -/
theorem calls_contract {m : Memory} (buffer : m.Buffer) (before : List Call) :
    let fresh : Feed := { buffer := buffer.size }
    let f := (fresh.calls before).2
    let appended := Call.allAppended before (fresh.calls before).1
    match Call.firstGiven before with
    | none =>
      (∀ out later, f.calls (.next out :: later) =
        (.batch (.error .unbound) out [] :: (f.calls later).1, (f.calls later).2)) ∧
      ∀ file refill, (f.call (.bind file refill)).1 = .bound (.ok ())
    | some (file, refill) =>
      (∀ file' refill' later, f.calls (.bind file' refill' :: later) =
        (.bound (.error .alreadyBound) :: (f.calls later).1, (f.calls later).2)) ∧
      (∀ out, ∃ result new events g,
        f.call (.next out) = (.batch result (out ++ new) events, g) ∧
          Contract f file (max refill 1) appended new result g) ∧
      (f.exhausted = true → ∀ later, (f.calls later).2 = f) := by
  intro fresh f appended
  have hstart : fresh.Inv none [] := ⟨rfl, rfl, rfl⟩
  have hinv : f.Inv (Call.firstGiven before) appended := hstart.calls before
  cases hgiven : Call.firstGiven before with
  | none =>
    rw [hgiven] at hinv
    obtain ⟨hb, hex, -⟩ := hinv
    refine ⟨?_, ?_⟩
    · intro out later
      exact calls_cons_of_same (call_next_of_unbound hb out) later
    · intro file refill
      obtain ⟨g, hcall, -⟩ := inv_of_bind hb file refill
      rw [hcall]
  | some entry =>
    obtain ⟨file, refill⟩ := entry
    rw [hgiven] at hinv
    refine ⟨?_, ?_, ?_⟩
    · intro file' refill' later
      obtain ⟨b, hb, -⟩ := hinv
      exact calls_cons_of_same (call_bind_of_bound hb file' refill') later
    · intro out
      obtain ⟨result, new, events, g, hcall, hcontract, -⟩ := hinv.next out
      exact ⟨result, new, events, g, hcall, hcontract⟩
    · intro hex later
      obtain ⟨b, hb, -⟩ := hinv
      exact calls_of_exhausted hb hex later

end Feed

end IndexFeed.Database
