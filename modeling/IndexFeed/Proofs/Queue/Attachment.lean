import IndexFeed.Proofs.Queue.Construction
import IndexFeed.Proofs.Queue.Run

/-!
# Pairs that can be found

What it takes to attach to a pair is that the names which the options give lead to its two queues.  The
messages that wait do not come into it, and messages are all that a driver and its worker change while
they talk.  So a pair that can be found once can be found for as long as nobody removes its names,
wherever the two of them have stopped, and whoever attaches gets handles on the same two queues, with
the limit that the creator has set.
-/

set_option autoImplicit false

namespace IndexFeed.Queue

variable {kernel : Kernel} {s s' t u : Store} {k : Handle} {o o' : Options} {p d w : Pair}
  {events : List Event}

/-! ## What the messages leave alone -/

namespace Store

/-- One store has the names of another, and its queues have the same limits. -/
structure Keeps (s t : Store) : Prop where
  names : t.names = s.names
  limit : ∀ q, t.limit? q = s.limit? q

theorem Keeps.refl (s : Store) : s.Keeps s := ⟨rfl, fun _ => rfl⟩

theorem Keeps.trans (h : s.Keeps t) (k : t.Keeps u) : s.Keeps u :=
  ⟨k.names.trans h.names, fun q => (k.limit q).trans (h.limit q)⟩

theorem keeps_setPending (s : Store) (q : QueueId) (ms : List Bytes) :
    s.Keeps (s.setPending q ms) :=
  ⟨rfl, fun _ => limit?_setPending⟩

theorem keeps_sendBytes {m : Bytes} {res : Except Error Unit}
    (h : s.sendBytes k m = (res, s', events)) : s.Keeps s' := by
  cases res with
  | error e =>
    obtain rfl := sendBytes_error h
    exact .refl s'
  | ok u =>
    obtain ⟨-, rfl⟩ := sendBytes_ok h
    exact keeps_setPending s _ _

theorem keeps_receive {α : Type} {D : Json.Decoder α} {wait : Span} {res : Except Error α}
    (h : s.receive k D wait = (res, s', events)) : s.Keeps s' := by
  rcases receive_cases h with ⟨-, -, rfl⟩ | ⟨m, rest, -, -, rfl⟩
  · exact .refl s'
  · exact keeps_setPending s _ _

/-- The name of a handle leads to its queue, which has the limit that the handle says. -/
structure Leads (s : Store) (k : Handle) : Prop where
  bound : s.find? k.name = some k.queue
  limit : s.limit? k.queue = some k.maxMessageSize

theorem Leads.of_keeps (h : s.Leads k) (hkeeps : s.Keeps t) : t.Leads k where
  bound := by
    rw [find?, hkeeps.names]
    exact h.bound
  limit := (hkeeps.limit k.queue).trans h.limit

/-- Under a name in its normal form, a queue is opened as it has been created. -/
theorem openNamed_of_leads (h : s.Leads k) (hname : normalize k.name = .ok k.name)
    (hfree : isReserved k.name = false) :
    s.openNamed k.name = (.ok { k with lifecycle := .openOnly }, [.openedQueue k.name]) := by
  obtain ⟨fifo, hget, hlimit⟩ := Option.map_eq_some_iff.1 h.limit
  simp only [openNamed, hname, hfree, h.bound, hget, hlimit, Bool.false_eq_true, if_false]

theorem Brings.leads {n : String} {c : Capacity} (h : s.Brings k n c) : s.Leads k where
  bound := by
    rw [h.name]
    exact h.bound
  limit := by rw [limit?, h.empty, Option.map_some, h.size]

end Store

namespace Conversation

variable {x y : Conversation}

/-- **No step of either side takes a name or a queue away.** -/
theorem Step.keeps (hs : Step o d w x y) : x.store.Keeps y.store := by
  cases hs with
  | send _ hsend => exact Store.keeps_sendBytes hsend
  | sendFails hsend => exact Store.keeps_sendBytes hsend
  | receive hreceive => exact Store.keeps_receive hreceive
  | attach => exact .refl x.store
  | announce _ _ hsend => exact Store.keeps_sendBytes hsend
  | announceFails _ hsend => exact Store.keeps_sendBytes hsend
  | take _ hreceive => exact Store.keeps_receive hreceive
  | reply _ _ hsend => exact Store.keeps_sendBytes hsend
  | replyFails _ hsend => exact Store.keeps_sendBytes hsend

theorem Steps.keeps (hs : Steps o d w x y) : x.store.Keeps y.store := by
  induction hs with
  | refl => exact .refl x.store
  | tail _ hstep ih => exact ih.trans hstep.keeps

end Conversation

/-- Neither does a whole run of a worker, however it ends. -/
theorem Worker.keeps_run (o : Options) (p : Pair) (s : Store) : s.Keeps (run o p s).2.1 := by
  unfold run
  split
  · next hsend => exact Store.keeps_sendBytes hsend
  · next hsend =>
    exact ((Store.keeps_sendBytes hsend).trans (Store.keeps_setPending _ _ _)).trans
      (Store.keeps_setPending _ _ _)

/-! ## Attaching to what has been created -/

/-- The ids are all that a name depends on. -/
theorem Options.queueName_congr (hdriver : o'.driverId = o.driverId)
    (hworker : o'.workerId = o.workerId) (d : Direction) : o'.queueName d = o.queueName d := by
  simp only [queueName, plainName, hdriver, hworker]

namespace Pair

/-- What the other side of a pair has: handles on the same queues, which do not own them. -/
def otherEnd (p : Pair) : Pair where
  toWorker := { p.toWorker with lifecycle := .openOnly }
  toDriver := { p.toDriver with lifecycle := .openOnly }

/-- The options give the two names of a pair, each in its direction, and both lead to its queues. -/
structure Found (s : Store) (o : Options) (p : Pair) : Prop where
  nameToWorker : o.queueName .toWorker = .ok p.toWorker.name
  nameToDriver : o.queueName .toDriver = .ok p.toDriver.name
  toWorker : s.Leads p.toWorker
  toDriver : s.Leads p.toDriver

theorem Found.of_keeps (h : Found s o p) (hkeeps : s.Keeps t) : Found t o p where
  nameToWorker := h.nameToWorker
  nameToDriver := h.nameToDriver
  toWorker := h.toWorker.of_keeps hkeeps
  toDriver := h.toDriver.of_keeps hkeeps

/-- Options with the same ids find the same pair, whatever else they say. -/
theorem Found.of_ids (h : Found s o p) (hdriver : o'.driverId = o.driverId)
    (hworker : o'.workerId = o.workerId) : Found s o' p where
  nameToWorker := (Options.queueName_congr hdriver hworker _).trans h.nameToWorker
  nameToDriver := (Options.queueName_congr hdriver hworker _).trans h.nameToDriver
  toWorker := h.toWorker
  toDriver := h.toDriver

/-- A pair can be found once it has been created, with the limit that the options set. -/
theorem found_of_create (h : create s o kernel = (.ok p, s', events)) :
    Found s' o p ∧ p.toWorker.maxMessageSize = o.maxMessageSize.toNat ∧
      p.toDriver.maxMessageSize = o.maxMessageSize.toNat := by
  obtain ⟨m, n, hm, hn, hadds, -⟩ := adds_of_create h
  refine ⟨⟨?_, ?_, hadds.toWorker.leads, hadds.toDriver.leads⟩, hadds.toWorker.size,
    hadds.toDriver.size⟩
  · rw [hadds.toWorker.name]
    exact hm
  · rw [hadds.toDriver.name]
    exact hn

/-- Whoever attaches to a pair that can be found gets its other end. -/
theorem Found.attach (h : Found s o p) :
    attach s o = (.ok p.otherEnd, [.openedQueue p.toWorker.name, .openedQueue p.toDriver.name,
      .attachedPair o.driverId o.workerId.toNat]) := by
  have htoWorker := Store.openNamed_of_leads h.toWorker (Options.normalize_of_queueName h.nameToWorker)
    (Options.isReserved_of_queueName h.nameToWorker)
  have htoDriver := Store.openNamed_of_leads h.toDriver (Options.normalize_of_queueName h.nameToDriver)
    (Options.isReserved_of_queueName h.nameToDriver)
  simp only [Pair.attach, h.nameToWorker, h.nameToDriver, htoWorker, htoDriver]
  rfl

/-- The other end of a pair that can be found has its two queues. -/
theorem Found.stands_otherEnd (h : Found s o p) (hne : p.toWorker.queue ≠ p.toDriver.queue) :
    Stands s p.otherEnd where
  hasToWorker := Store.has_of_limit? h.toWorker.limit
  hasToDriver := Store.has_of_limit? h.toDriver.limit
  ne := hne

/-- A pair that has been attached to takes nothing away when it is dropped. -/
theorem drop_of_attach (h : attach s o = (.ok p, events)) (t : Store) : (p.drop t).1 = t := by
  obtain ⟨m, n, e₁, e₂, -, -, htoWorker, htoDriver⟩ := attach_ok_split h
  simp only [drop, Store.drop_eq, Store.openNamed_lifecycle htoWorker,
    Store.openNamed_lifecycle htoDriver]

end Pair

end IndexFeed.Queue
