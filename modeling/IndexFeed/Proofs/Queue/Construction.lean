import IndexFeed.Proofs.Queue.Naming
import IndexFeed.Proofs.Queue.Session

/-!
# Pairs are created whole

A driver creates the queue to its worker first, so that queue is there while the other one may still
fail.  What can be seen of a store is its table: the names, and behind each name how much the queue
holds and the messages that wait in it.  An attempt at a pair that fails leaves the table as it was,
whatever it failed for, and one that succeeds adds two empty queues and touches no other.  A worker
attaches to a pair without changing anything.
-/

set_option autoImplicit false

namespace IndexFeed.Queue

/-! ## The table of names -/

namespace Store

variable {kernel : Kernel} {s s' : Store} {h : Handle} {c : Capacity} {n name : String}
  {events : List Event}

/-- What a name leads to. -/
def table (s : Store) (n : String) : Option Fifo := (s.find? n).bind fun q => s.queues[q]?

/-- Every name leads to a queue. -/
def Sound (s : Store) : Prop := ∀ n q, s.find? n = some q → s.Has q

/-- A handle has come with a queue under a name, and nobody has used the queue. -/
structure Brings (s : Store) (h : Handle) (n : String) (c : Capacity) : Prop where
  name : h.name = n
  lifecycle : h.lifecycle = .createOnly
  size : h.maxMessageSize = c.maxMessageSize.toNat
  bound : s.find? n = some h.queue
  empty : s.queues[h.queue]? = some ⟨c.maxMessages.toNat, c.maxMessageSize.toNat, []⟩

theorem Brings.table (hb : s.Brings h n c) :
    s.table n = some ⟨c.maxMessages.toNat, c.maxMessageSize.toNat, []⟩ := by
  rw [Store.table, hb.bound]
  exact hb.empty

theorem queues_grow {fifos : List Fifo} {q : QueueId} (hq : s.Has q) :
    (s.grow fifos).queues[q]? = s.queues[q]? := List.getElem?_append_left hq

/-- Queues without a name do not show. -/
theorem table_grow (hs : s.Sound) (fifos : List Fifo) : (s.grow fifos).table = s.table := by
  funext n
  rw [table, table, show (s.grow fifos).find? n = s.find? n from rfl]
  cases hn : s.find? n with
  | none => rfl
  | some q => exact queues_grow (hs n q hn)

/-- A queue can be created under a name that is free if the capacity is granted and the system does
not keep the name for itself. -/
theorem create_succeeds_iff (hname : normalize name = .ok n) :
    (∃ h s' events, s.create name c kernel = (.ok h, s', events)) ↔
      isReserved n = false ∧ s.find? n = none ∧ kernel.grants s c = true := by
  have hfails : (∃ e s' events, s.create name c kernel = (.error e, s', events)) ↔ _ :=
    create_fails_iff hname
  rcases hcreate : s.create name c kernel with ⟨e | h, s', events⟩
  · have hfailed := hfails.1 ⟨e, s', events, hcreate⟩
    simp only [Prod.mk.injEq, reduceCtorEq, false_and, exists_const, false_iff]
    rintro ⟨hreserved, hfree, hgrants⟩
    simp [hreserved, hfree, hgrants] at hfailed
  · have hallowed := mt hfails.2 (by simp [hcreate])
    simp only [not_or, Bool.not_eq_true, Option.isSome_eq_false_iff, Option.isNone_iff_eq_none,
      Bool.not_eq_false] at hallowed
    exact iff_of_true ⟨h, s', events, rfl⟩ hallowed

/-- What comes of creating a queue under a name whose normal form is known. -/
theorem create_ok_of_normalize (hname : normalize name = .ok n)
    (hs : s.create name c kernel = (.ok h, s', events)) :
    s.find? n = none ∧ kernel.grants s c = true ∧
      h = ⟨s.queues.length, n, .createOnly, c.maxMessageSize.toNat⟩ ∧ s' = s.withQueue n c := by
  obtain ⟨n', hn', -, hcreated⟩ := create_ok hs
  rw [hname, Except.ok.injEq] at hn'
  subst hn'
  exact hcreated

/-- Nothing comes of opening a queue but a handle, and nothing of dropping the handle. -/
theorem drop_openNamed (hopen : s.openNamed name = (.ok h, events)) : (s.drop h).1 = s := by
  rw [drop_eq, openNamed_lifecycle hopen]

end Store

/-- Names come with queues, so in every store that can arise they lead to queues. -/
theorem Session.Reachable.sound {allowed : Session → Call → Prop} {x : Session}
    (h : Reachable allowed x) : x.store.Sound := fun n q hq => by
  obtain ⟨k, c, hk, rfl, -⟩ := h.inv.bound n q hq
  exact h.inv.has hk

/-- The system does not keep the name of a queue for itself. -/
theorem Options.isReserved_of_queueName {o : Options} {d : Direction} {n : String}
    (h : o.queueName d = .ok n) : Store.isReserved n = false := by
  obtain ⟨-, rfl⟩ := queueName_eq_ok_iff.1 h
  refine Bool.eq_false_iff.2 fun hreserved => ?_
  have hdash : '-' ∈ (String.ofList ('/' :: (o.plainName d).toList)).toList := by
    simp [toList_plainName]
  rcases Store.isReserved_iff.1 hreserved with hname | hname
  all_goals
    rw [hname] at hdash
    exact absurd hdash (by decide)

namespace Pair

variable {kernel : Kernel} {s s' : Store} {o : Options} {p : Pair} {m n : String}
  {events : List Event}

/-! ## Creating a pair -/

/-- The second store is the first with the two queues of a new pair under two names that were free. -/
structure Adds (s s' : Store) (p : Pair) (m n : String) (c : Capacity) : Prop where
  ne : m ≠ n
  freeToWorker : s.find? m = none
  freeToDriver : s.find? n = none
  names : s'.names = (n, p.toDriver.queue) :: (m, p.toWorker.queue) :: s.names
  toWorker : s'.Brings p.toWorker m c
  toDriver : s'.Brings p.toDriver n c
  queues : ∀ q, s.Has q → s'.queues[q]? = s.queues[q]?

theorem Adds.find? {c : Capacity} (h : Adds s s' p m n c) {name : String} (hm : name ≠ m)
    (hn : name ≠ n) : s'.find? name = s.find? name := by
  rw [Store.find?, h.names, List.lookup_cons, beq_eq_false_iff_ne.2 hn, List.lookup_cons,
    beq_eq_false_iff_ne.2 hm]
  rfl

theorem Adds.table {c : Capacity} (h : Adds s s' p m n c) (hs : s.Sound) {name : String}
    (hm : name ≠ m) (hn : name ≠ n) : s'.table name = s.table name := by
  rw [Store.table, Store.table, h.find? hm hn]
  cases hname : s.find? name with
  | none => rfl
  | some q => exact h.queues q (hs name q hname)

/-- A pair that has been created adds two queues, and the system has granted one after the other. -/
theorem adds_of_create (h : create s o kernel = (.ok p, s', events)) :
    ∃ m n, o.queueName .toWorker = .ok m ∧ o.queueName .toDriver = .ok n ∧
      Adds s s' p m n o.capacity ∧ kernel.grants s o.capacity = true ∧
        kernel.grants (s.withQueue m o.capacity) o.capacity = true := by
  obtain ⟨m, n, s₁, e₁, e₂, hm, hn, hworker, hdriver⟩ := create_ok_split h
  have hne : m ≠ n := by
    rintro rfl
    exact absurd (Options.queueName_inj hm hn).2.2 (by decide)
  obtain ⟨hfree, hgrants, htoWorker, rfl⟩ :=
    Store.create_ok_of_normalize (Options.normalize_of_queueName hm) hworker
  obtain ⟨hfree', hgrants', htoDriver, rfl⟩ :=
    Store.create_ok_of_normalize (Options.normalize_of_queueName hn) hdriver
  have hnm : (n == m) = false := beq_eq_false_iff_ne.2 hne.symm
  have hmn : (m == n) = false := beq_eq_false_iff_ne.2 hne
  refine ⟨m, n, hm, hn, ?_, hgrants, hgrants'⟩
  rw [Store.find?, Store.names_withQueue, List.lookup_cons, hnm] at hfree'
  refine ⟨hne, hfree, hfree', ?_, ?_, ?_, fun q hq => ?_⟩
  · simp [htoWorker, htoDriver]
  · exact ⟨by rw [htoWorker], by rw [htoWorker], by rw [htoWorker],
      by simp [Store.find?, List.lookup_cons, hmn, htoWorker], by simp [htoWorker, Options.capacity]⟩
  · exact ⟨by rw [htoDriver], by rw [htoDriver], by rw [htoDriver],
      by simp [Store.find?, htoDriver], by simp [htoDriver, Options.capacity]⟩
  · rw [Store.queues_withQueue, Store.queues_withQueue, List.append_assoc,
      List.getElem?_append_left hq]

/-- A pair can be created if its options give it names that are free, and a capacity that is
granted, also beside the first queue. -/
theorem create_succeeds_iff : (∃ p s' events, create s o kernel = (.ok p, s', events)) ↔
    ∃ m n, o.queueName .toWorker = .ok m ∧ o.queueName .toDriver = .ok n ∧ s.find? m = none ∧
      s.find? n = none ∧ kernel.grants s o.capacity = true ∧
        kernel.grants (s.withQueue m o.capacity) o.capacity = true := by
  constructor
  · rintro ⟨p, s', events, h⟩
    obtain ⟨m, n, hm, hn, hadds, hgrants⟩ := adds_of_create h
    exact ⟨m, n, hm, hn, hadds.freeToWorker, hadds.freeToDriver, hgrants⟩
  · rintro ⟨m, n, hm, hn, hfree, hfree', hgrants, hgrants'⟩
    have hne : n ≠ m := by
      rintro rfl
      exact absurd (Options.queueName_inj hm hn).2.2 (by decide)
    obtain ⟨k, s₁, e₁, hworker⟩ := (Store.create_succeeds_iff (Options.normalize_of_queueName hm)).2
      ⟨Options.isReserved_of_queueName hm, hfree, hgrants⟩
    -- the queue to the worker is there now, and the other name is still free
    obtain ⟨-, -, rfl, rfl⟩ :=
      Store.create_ok_of_normalize (Options.normalize_of_queueName hm) hworker
    have hstill : (s.withQueue m o.capacity).find? n = none := by
      rw [(Store.find?_create hworker).2 n, if_neg hne, hfree']
    obtain ⟨j, s₂, e₂, hdriver⟩ := (Store.create_succeeds_iff (Options.normalize_of_queueName hn)).2
      ⟨Options.isReserved_of_queueName hn, hstill, hgrants'⟩
    exact ⟨⟨_, j⟩, s₂, _, by simp only [create, hm, hworker, hn, hdriver]; rfl⟩

/-- A pair that cannot be created leaves the table as it was. -/
theorem table_of_create_error {e : Error} (hs : s.Sound)
    (h : create s o kernel = (.error e, s', events)) :
    s'.names = s.names ∧ s'.table = s.table ∧ ∀ q, s.Has q → s'.queues[q]? = s.queues[q]? := by
  obtain ⟨fifos, -, rfl⟩ := create_error h
  exact ⟨rfl, Store.table_grow hs fifos, fun q hq => Store.queues_grow hq⟩

/-! ## Attaching to a pair -/

/-- Options whose names are bound lead to a pair, and no others do. -/
theorem attach_succeeds_iff : (∃ p events, attach s o = (.ok p, events)) ↔
    ∃ m n, o.queueName .toWorker = .ok m ∧ o.queueName .toDriver = .ok n ∧
      (∃ q, s.find? m = some q) ∧ ∃ q, s.find? n = some q := by
  have hopens : ∀ {d n}, o.queueName d = .ok n →
      ((∃ k es, s.openNamed n = (.ok k, es)) ↔ ∃ q, s.find? n = some q) := fun hn => by
    rw [Store.openNamed_succeeds_iff (Options.normalize_of_queueName hn),
      Options.isReserved_of_queueName hn, and_iff_right rfl]
  constructor
  · rintro ⟨p, events, h⟩
    obtain ⟨m, n, e₁, e₂, hm, hn, hworker, hdriver⟩ := attach_ok_split h
    exact ⟨m, n, hm, hn, (hopens hm).1 ⟨_, _, hworker⟩, (hopens hn).1 ⟨_, _, hdriver⟩⟩
  · rintro ⟨m, n, hm, hn, hbound, hbound'⟩
    obtain ⟨k, e₁, hworker⟩ := (hopens hm).2 hbound
    obtain ⟨j, e₂, hdriver⟩ := (hopens hn).2 hbound'
    exact ⟨⟨k, j⟩, _, by simp only [attach, hm, hworker, hn, hdriver]; rfl⟩

/-- **A pair is created whole or not at all.**  In a store in which every name leads to a queue, an
attempt at a pair that fails leaves the names, the limits and the messages that wait as they were,
whatever the system has said to the first queue or to the second.  One that succeeds adds the two names
that the options give, which lead to empty queues of the capacity that was asked for, and touches no
other queue.  It succeeds if and only if the options give names that are free and the system grants
their capacity, once in the store as it is and once with the first queue in it.  A worker can attach to
a pair if and only if both names are there.  Whether or not it can, the store stays as it is, and so it
does when a handle is dropped that the worker has got on the way. -/
theorem all_or_nothing (hs : s.Sound) (o : Options) (kernel : Kernel) :
    (∀ e s' events, create s o kernel = (.error e, s', events) →
      s'.names = s.names ∧ s'.table = s.table ∧ ∀ q, s.Has q → s'.queues[q]? = s.queues[q]?) ∧
    (∀ p s' events, create s o kernel = (.ok p, s', events) →
      ∃ m n, o.queueName .toWorker = .ok m ∧ o.queueName .toDriver = .ok n ∧
        Adds s s' p m n o.capacity ∧
        ∀ name, s'.table name =
          if name = m ∨ name = n then some ⟨o.maxMessages.toNat, o.maxMessageSize.toNat, []⟩
          else s.table name) ∧
    ((∃ p s' events, create s o kernel = (.ok p, s', events)) ↔
      ∃ m n, o.queueName .toWorker = .ok m ∧ o.queueName .toDriver = .ok n ∧ s.find? m = none ∧
        s.find? n = none ∧ kernel.grants s o.capacity = true ∧
          kernel.grants (s.withQueue m o.capacity) o.capacity = true) ∧
    ((∃ p events, attach s o = (.ok p, events)) ↔
      ∃ m n, o.queueName .toWorker = .ok m ∧ o.queueName .toDriver = .ok n ∧
        (∃ q, s.find? m = some q) ∧ ∃ q, s.find? n = some q) ∧
    (∀ x y : Session, x.store = s → Session.Step (.attachPair o) x y → y.store = s) ∧
    ∀ name k events, s.openNamed name = (.ok k, events) → (s.drop k).1 = s := by
  refine ⟨fun e s' events => table_of_create_error hs, fun p s' events h => ?_, create_succeeds_iff,
    attach_succeeds_iff, fun x y hx h => ?_, fun name k events => Store.drop_openNamed⟩
  · obtain ⟨m, n, hm, hn, hadds, -⟩ := adds_of_create h
    refine ⟨m, n, hm, hn, hadds, fun name => ?_⟩
    split
    · next hname =>
      rcases hname with rfl | rfl
      · exact hadds.toWorker.table
      · exact hadds.toDriver.table
    · next hname =>
      obtain ⟨hm, hn⟩ := not_or.1 hname
      exact hadds.table hs hm hn
  · cases h with
    | attachPair | attachPairFails => exact hx

/-- Somebody has taken the name of the second queue, with a message in it. -/
theorem nothing_of_taken_name :
    let taken : Store := { queues := [⟨2, 4, [[0x31]]⟩], names := [("/r-w0-to-driver", 0)] }
    let o : Options := { driverId := "r" }
    ∃ e s' events, create taken o = (.error e, s', events) ∧ s'.names = taken.names ∧
      s'.table = taken.table ∧ ¬ ∃ p events, attach taken o = (.ok p, events) := by
  intro taken o
  have hsound : taken.Sound := by
    intro n q hq
    rw [Store.find?, List.lookup_cons] at hq
    split at hq
    · cases hq
      exact Nat.one_pos
    · cases hq
  have hworker : o.queueName .toWorker = .ok "/r-w0-to-worker" := by decide +kernel
  have hdriver : o.queueName .toDriver = .ok "/r-w0-to-driver" := by decide +kernel
  obtain ⟨hfails, -, hsucceeds, hattaches, -⟩ := all_or_nothing hsound o .roomy
  rcases hcreate : create taken o with ⟨e | p, s', events⟩
  · obtain ⟨hnames, htable, -⟩ := hfails e s' events hcreate
    refine ⟨e, s', events, rfl, hnames, htable, fun hattach => ?_⟩
    obtain ⟨m, n, hm, -, ⟨q, hq⟩, -⟩ := hattaches.1 hattach
    cases hworker.symm.trans hm
    have hfree : taken.find? "/r-w0-to-worker" = none := by decide
    rw [hfree] at hq
    cases hq
  · obtain ⟨m, n, -, hn, -, hfree, -⟩ := hsucceeds.1 ⟨p, s', events, hcreate⟩
    cases hdriver.symm.trans hn
    exact absurd hfree (by decide)

/-- In a system that has room for one queue no pair is created: there is no space left for the second
queue, and the name of the first is gone again. -/
example :
    let kernel : Kernel := ⟨fun s _ => if s.queues.isEmpty then none else some ⟨28⟩⟩
    (create {} {} kernel).1 = .error (.cannotCreate "/compdb-ipc-w0-to-driver" ⟨28⟩) ∧
      (create {} {} kernel).2.1.names = [] := by
  decide +kernel

end Pair

end IndexFeed.Queue
