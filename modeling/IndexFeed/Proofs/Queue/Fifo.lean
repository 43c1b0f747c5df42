import IndexFeed.Proofs.Queue.Session

/-!
# What goes through a queue

Whatever the programs of a session do: a queue gives back what has been sent to it, in order, each
message once.  Sending puts a message at the end of the queue of the handle or changes nothing at
all, and receiving takes the message at its front or changes nothing at all.  As a new queue is none
of those that any handle is on, a name that changes hands brings no messages from one queue to
another.
-/

set_option autoImplicit false

namespace IndexFeed.Queue

variable {s s' : Store} {q : QueueId} {m : Bytes} {k : Handle} {events : List Event}

namespace Store

/-- The second store is the first with a message more at the end of a queue. -/
structure Puts (q : QueueId) (m : Bytes) (s s' : Store) : Prop where
  names : s'.names = s.names
  pending : s'.pending q = s.pending q ++ [m]
  others : ∀ p, p ≠ q → s'.pending p = s.pending p

/-- The second store is the first without the message at the front of a queue. -/
structure Takes (q : QueueId) (m : Bytes) (s s' : Store) : Prop where
  names : s'.names = s.names
  pending : s.pending q = m :: s'.pending q
  others : ∀ p, p ≠ q → s'.pending p = s.pending p

theorem puts_push (hq : s.Has q) (m : Bytes) : Puts q m s (s.push q m) :=
  ⟨rfl, pending_push hq, fun _ => pending_push_of_ne⟩

theorem takes_setPending {rest : List Bytes} (hq : s.Has q) (hcons : s.pending q = m :: rest) :
    Takes q m s (s.setPending q rest) :=
  ⟨rfl, by rw [pending_setPending hq, hcons], fun _ => pending_setPending_of_ne⟩

/-- What goes through a handle on a queue whose messages have at most `limit` octets. -/
structure Exchanges (s : Store) (k : Handle) (limit : Nat) : Prop where
  /-- a message is too large if and only if its octets are more than the limit -/
  tooLarge : ∀ written res s' es, s.sendWritten k written = (res, s', es) →
    ((∃ n l, res = .error (.tooLarge n l)) ↔ ∃ m, written = .ok m ∧ limit < m.length)
  /-- a send that fails changes nothing -/
  refused : ∀ written e s' es, s.sendWritten k written = (.error e, s', es) → s' = s
  /-- what is sent stands at the end of the queue -/
  sent : ∀ written s' es, s.sendWritten k written = (.ok (), s', es) →
    ∃ m, written = .ok m ∧ Puts k.queue m s s'
  /-- a receive waits in vain and changes nothing, or takes the message at the front of the queue,
  whatever the decoder makes of it -/
  received : ∀ (α : Type) (D : Json.Decoder α) wait res s' es,
    s.receive k D wait = (res, s', es) →
    (s.pending k.queue = [] ∧ res = .error (.timedOut wait) ∧ s' = s) ∨
      ∃ m, res = decode D m ∧ Takes k.queue m s s'
  /-- so without waiting -/
  tried : ∀ (α : Type) (D : Json.Decoder α) res s' es, s.tryReceive k D = (res, s', es) →
    (s.pending k.queue = [] ∧ res = .ok none ∧ s' = s) ∨
      ∃ m, res = (decode D m).map some ∧ Takes k.queue m s s'

theorem sendWritten_tooLarge_iff {written : Except Json.Error Bytes} {res : Except Error Unit}
    (hs : s.sendWritten k written = (res, s', events)) :
    (∃ n l, res = .error (.tooLarge n l)) ↔ ∃ m, written = .ok m ∧ k.maxMessageSize < m.length := by
  cases written with
  | error reason =>
    cases hs
    simp
  | ok m =>
    rw [sendWritten, sendBytes] at hs
    split at hs
    · next hlarge =>
      cases hs
      simpa using hlarge
    · next hfits =>
      cases hs
      simpa using hfits

theorem exchanges (hq : s.Has k.queue) : s.Exchanges k k.maxMessageSize where
  tooLarge _ _ _ _ := sendWritten_tooLarge_iff
  refused _ _ _ _ := sendWritten_error
  sent written s' es hs := by
    cases written with
    | error reason => cases hs
    | ok m =>
      obtain ⟨-, rfl⟩ := sendBytes_ok hs
      exact ⟨m, rfl, puts_push hq m⟩
  received α D wait res s' es hs := by
    rcases receive_cases hs with hvain | ⟨m, rest, hcons, hres, rfl⟩
    · exact .inl hvain
    · exact .inr ⟨m, hres, takes_setPending hq hcons⟩
  tried α D res s' es hs := by
    rcases tryReceive_cases hs with hvain | ⟨m, rest, hcons, hres, rfl⟩
    · exact .inl hvain
    · exact .inr ⟨m, hres, takes_setPending hq hcons⟩

end Store

namespace Session

variable {x y : Session} {c : Capacity}

/-- A new queue is none of those that were there, and changes none of them. -/
theorem Inv.create_fresh {name : String} {kernel : Kernel} (h : Inv x)
    (hs : x.store.create name c kernel = (.ok k, s, events)) :
    (∀ j c', .created j c' ∈ x.log → j.queue ≠ k.queue) ∧
      ∀ q, s.pending q = x.store.pending q := by
  obtain ⟨n, -, -, -, -, rfl, rfl⟩ := Store.create_ok hs
  exact ⟨fun j c' hj => Nat.ne_of_lt (h.has hj),
    fun q => Store.pending_grow (List.forall_mem_singleton.2 rfl)⟩

/-- What is created later is none of the queues that a handle has been on before. -/
theorem Inv.ne_of_created_later {allowed : Session → Call → Prop} {j : Handle} (h : Inv x)
    (hs : Steps allowed x y) (hk : k ∈ x.handles) (hj : .created j c ∈ y.log)
    (hlater : .created j c ∉ x.log) : k.queue ≠ j.queue := by
  obtain ⟨i, c', hi, hfollows⟩ := h.attached k hk
  rw [hfollows.queue]
  intro hqueue
  obtain ⟨rfl, rfl⟩ := (h.steps hs).unique i c' j c (hs.log_subset _ hi) hj hqueue
  exact hlater hi

/-- **Every queue is a FIFO that loses and doubles nothing.** Whatever calls have led to a session:

* what has been taken from a queue, followed by what waits in it, is what has been sent to it;
* each open handle is on one of the queues that have been created, sends to its end and receives
  from its front, and is told that a message is too large exactly if its octets are more than the
  queue has been created for;
* a queue that is created is none of those that have been created before, and none of the messages
  that wait are touched;
* whatever is called next, a handle stays with its queue: it is on none of those that are created
  from now on, though they may have the name of its own;
* a name that is opened leads to the queue that is bound to it. -/
theorem Reachable.fifo (h : Reachable Anything x) :
    (∀ q, x.receivedFrom q ++ x.store.pending q = x.sentTo q) ∧
    (∀ k ∈ x.handles, ∃ j c, .created j c ∈ x.log ∧ k.queue = j.queue ∧
      x.store.Exchanges k c.maxMessageSize.toNat) ∧
    (∀ name c (kernel : Kernel) k s es, x.store.create name c kernel = (.ok k, s, es) →
      (∀ j c', .created j c' ∈ x.log → j.queue ≠ k.queue) ∧
        ∀ q, s.pending q = x.store.pending q) ∧
    (∀ y, Steps Anything x y → ∀ k ∈ x.handles, ∀ j c, .created j c ∈ y.log →
      .created j c ∉ x.log → k.queue ≠ j.queue) ∧
    (∀ name k es, x.store.openNamed name = (.ok k, es) →
      x.store.find? k.name = some k.queue) := by
  have hinv := h.inv
  refine ⟨hinv.accounts, fun k hk => ?_, fun _ _ _ _ _ _ => hinv.create_fresh,
    fun y hs k hk j c => hinv.ne_of_created_later hs hk, fun name k es hs => ?_⟩
  · obtain ⟨j, c, hj, hfollows⟩ := hinv.attached k hk
    refine ⟨j, c, hj, hfollows.queue, ?_⟩
    rw [← (hinv.created j c hj).size, ← hfollows.size]
    exact Store.exchanges (hinv.has_of_mem hk)
  · obtain ⟨n, q, -, -, hq, rfl, rfl, -⟩ := Store.openNamed_ok hs
    exact hq

/-- A message that was sent before the name changed hands waits in the old queue; a handle from
before takes it there, whatever it asks for, and has nothing to do with the new queue. -/
theorem fifo_of_handedOn :
    handedOn.receivedFrom 0 ++ [[0x31]] = handedOn.sentTo 0 ∧
      handedOn.receivedFrom 1 ++ [] = handedOn.sentTo 1 ∧
      (∀ (α : Type) (D : Json.Decoder α), ∃ s es,
        handedOn.store.receive opener D .zero = (Store.decode D [0x31], s, es) ∧
          handedOn.store.Takes 0 [0x31] s) ∧
      (∃ n l, (handedOn.store.sendWritten opener (.ok [0x22, 0x61, 0x62, 0x63, 0x22])).1 =
        .error (.tooLarge n l)) ∧
      opener.queue ≠ (owner 1).queue := by
  obtain ⟨haccounts, hhandles, -⟩ := Reachable.fifo reachable_handedOn
  obtain ⟨j, c, hj, hqueue, hexchanges⟩ := hhandles opener (by decide)
  obtain ⟨-, -, -, hlater, -⟩ :=
    Reachable.fifo (reachable_shared.mono fun _ _ _ => trivial)
  obtain rfl : c = ⟨2, 4⟩ := by
    simp only [handedOn, List.mem_cons, Entry.created.injEq, reduceCtorEq, List.not_mem_nil,
      or_false, false_or] at hj
    rcases hj with ⟨-, hc⟩ | ⟨-, hc⟩ <;> exact hc
  refine ⟨haccounts 0, haccounts 1, fun α D => ⟨_, _, rfl, ?_⟩,
    (hexchanges.tooLarge _ _ _ _ rfl).2 ⟨_, rfl, by decide⟩,
    hlater handedOn steps_handedOn opener (by decide) (owner 1) ⟨2, 4⟩ (by decide) (by decide)⟩
  rcases hexchanges.received α D .zero _ _ _ rfl with ⟨hnil, -⟩ | ⟨m, -, htakes⟩
  · cases hnil
  · have hm : m = [0x31] := (List.cons.inj htakes.pending).1.symm
    exact hm ▸ htakes

end Session

end IndexFeed.Queue
