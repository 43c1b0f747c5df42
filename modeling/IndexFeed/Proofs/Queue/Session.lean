import Mathlib.Data.List.Nodup
import IndexFeed.Proofs.Queue.Name
import IndexFeed.Proofs.Queue.Pair

/-!
# Sessions

Everything that a number of programs do with the queues of one system, from a system without queues
on: they create and open queues and pairs, send and receive through the handles that they have got,
drop handles or lose them in a crash, and unlink names.  The calls of all programs stand in one
order, and every handle that is open somewhere is in one list.

A session keeps a log of the queues that have been created and of the messages that have been sent
and received.  `Session.Inv` is what every call preserves.  It ties three things together that know
of each other by a number only: the queues, the names bound to them, and the handles.
-/

set_option autoImplicit false

namespace IndexFeed.Queue

/-- Something that has happened to a queue. -/
inductive Entry where
  /-- a handle has come with a new queue -/
  | created (k : Handle) (c : Capacity)
  /-- a message has been sent through a handle -/
  | sent (k : Handle) (message : Bytes)
  /-- a message has been taken through a handle -/
  | received (k : Handle) (message : Bytes)
  deriving DecidableEq, Repr

/-- The queues of a system, the handles that are open, and what has happened so far. -/
structure Session where
  store : Store := {}
  handles : List Handle := []
  log : List Entry := []
  deriving DecidableEq, Repr

/-- What a program asks for. -/
inductive Call where
  | create (name : String) (c : Capacity)
  | openNamed (name : String)
  | createPair (o : Options)
  | attachPair (o : Options)
  | send (k : Handle)
  | receive (k : Handle)
  | drop (k : Handle)
  /-- the program ends without dropping the handle -/
  | forget (k : Handle)
  | unlink (name : String)
  deriving DecidableEq, Repr

namespace Session

/-- The session with a new queue. -/
def add (x : Session) (s : Store) (k : Handle) (c : Capacity) : Session :=
  { store := s, handles := k :: x.handles, log := x.log ++ [.created k c] }

/-- The session with one more handle on a queue that was there. -/
def attach (x : Session) (k : Handle) : Session := { x with handles := k :: x.handles }

/-- The session without a handle. -/
def detach (x : Session) (k : Handle) : Session := { x with handles := x.handles.erase k }

/-- One call of one program.  A message is sent only where there is room for it, and a receive that
finds nothing has waited in vain.  What the system says to a new queue is left open, and it may say
something else the next time. -/
inductive Step : Call → Session → Session → Prop where
  | create {x : Session} {name : String} {c : Capacity} {kernel : Kernel} {k : Handle} {s : Store}
      {es : List Event} : x.store.create name c kernel = (.ok k, s, es) →
      Step (.create name c) x (x.add s k c)
  | createFails {x : Session} {name : String} {c : Capacity} {kernel : Kernel} {e : Error}
      {s : Store} {es : List Event} : x.store.create name c kernel = (.error e, s, es) →
      Step (.create name c) x { x with store := s }
  | openNamed {x : Session} {name : String} {k : Handle} {es : List Event} :
      x.store.openNamed name = (.ok k, es) → Step (.openNamed name) x (x.attach k)
  | openFails {x : Session} {name : String} {e : Error} {es : List Event} :
      x.store.openNamed name = (.error e, es) → Step (.openNamed name) x x
  | createPair {x : Session} {o : Options} {kernel : Kernel} {p : Pair} {s : Store}
      {es : List Event} : Pair.create x.store o kernel = (.ok p, s, es) →
      Step (.createPair o) x ((x.add s p.toWorker o.capacity).add s p.toDriver o.capacity)
  | createPairFails {x : Session} {o : Options} {kernel : Kernel} {e : Error} {s : Store}
      {es : List Event} : Pair.create x.store o kernel = (.error e, s, es) →
      Step (.createPair o) x { x with store := s }
  | attachPair {x : Session} {o : Options} {p : Pair} {es : List Event} :
      Pair.attach x.store o = (.ok p, es) →
      Step (.attachPair o) x ((x.attach p.toWorker).attach p.toDriver)
  | attachPairFails {x : Session} {o : Options} {e : Error} {es : List Event} :
      Pair.attach x.store o = (.error e, es) → Step (.attachPair o) x x
  | send {x : Session} {k : Handle} {m : Bytes} {s : Store} {es : List Event} :
      k ∈ x.handles → x.store.isFull k.queue = false →
      x.store.sendWritten k (.ok m) = (.ok (), s, es) →
      Step (.send k) x { x with store := s, log := x.log ++ [.sent k m] }
  | sendFails {x : Session} {k : Handle} {written : Except Json.Error Bytes} {e : Error}
      {s : Store} {es : List Event} :
      k ∈ x.handles → x.store.sendWritten k written = (.error e, s, es) →
      Step (.send k) x { x with store := s }
  | receive {x : Session} {k : Handle} {α : Type} {D : Json.Decoder α} {wait : Span}
      {res : Except Error α} {s : Store} {es : List Event} :
      k ∈ x.handles → x.store.receive k D wait = (res, s, es) →
      Step (.receive k) x { x with
        store := s, log := x.log ++ ((x.store.pending k.queue).take 1).map (.received k) }
  | tryReceive {x : Session} {k : Handle} {α : Type} {D : Json.Decoder α}
      {res : Except Error (Option α)} {s : Store} {es : List Event} :
      k ∈ x.handles → x.store.tryReceive k D = (res, s, es) →
      Step (.receive k) x { x with
        store := s, log := x.log ++ ((x.store.pending k.queue).take 1).map (.received k) }
  | drop {x : Session} {k : Handle} : k ∈ x.handles →
      Step (.drop k) x { x.detach k with store := (x.store.drop k).1 }
  | forget {x : Session} {k : Handle} : k ∈ x.handles → Step (.forget k) x (x.detach k)
  | unlink {x : Session} {name : String} {res : Except Error Bool} {s : Store} :
      x.store.unlink name = (res, s) → Step (.unlink name) x { x with store := s }

/-- What a call does to a session where it does anything.  A pair is two queues created or opened
one after the other, and an attempt at a pair may leave a queue behind that has no name. -/
inductive Effect : Call → Session → Session → Prop where
  | create {x : Session} {call : Call} {name : String} {c : Capacity} {kernel : Kernel} {k : Handle}
      {s : Store} {es : List Event} : x.store.create name c kernel = (.ok k, s, es) →
      Effect call x (x.add s k c)
  | openNamed {x : Session} {call : Call} {name : String} {k : Handle} {es : List Event} :
      x.store.openNamed name = (.ok k, es) → Effect call x (x.attach k)
  | abandon {x : Session} {call : Call} {fifos : List Fifo} :
      (∀ fifo ∈ fifos, fifo.messages = []) →
      Effect call x { x with store := x.store.grow fifos }
  | put {x : Session} {call : Call} {k : Handle} {m : Bytes} : k ∈ x.handles →
      Effect call x { x with
        store := x.store.push k.queue m, log := x.log ++ [.sent k m] }
  | take {x : Session} {call : Call} {k : Handle} {m : Bytes} {rest : List Bytes} :
      k ∈ x.handles → x.store.pending k.queue = m :: rest →
      Effect call x { x with
        store := x.store.setPending k.queue rest, log := x.log ++ [.received k m] }
  | drop {x : Session} {k : Handle} : k ∈ x.handles →
      Effect (.drop k) x { x.detach k with store := (x.store.drop k).1 }
  | forget {x : Session} {k : Handle} : k ∈ x.handles → Effect (.forget k) x (x.detach k)
  | unbind {x : Session} {name n : String} : normalize name = .ok n →
      Effect (.unlink name) x { x with store := x.store.removeName n }

/-- What every effect of a call preserves, the call preserves. -/
theorem Step.preserves {P : Session → Prop} {call : Call} {x y : Session} (hs : Step call x y)
    (hP : ∀ x y, P x → Effect call x y → P y) (hx : P x) : P y := by
  cases hs with
  | create hcreate => exact hP _ _ hx (.create hcreate)
  | createFails hcreate =>
    obtain rfl := Store.create_error hcreate
    exact hx
  | openNamed hopen => exact hP _ _ hx (.openNamed hopen)
  | openFails => exact hx
  | createPair hcreate =>
    obtain ⟨workerName, driverName, s₁, e₁, e₂, -, -, hworker, hdriver⟩ :=
      Pair.create_ok_split hcreate
    exact hP _ _ (hP _ _ hx (.create hworker)) (.create hdriver)
  | createPairFails hcreate =>
    obtain ⟨fifos, hfifos, rfl⟩ := Pair.create_error hcreate
    exact hP _ _ hx (.abandon hfifos)
  | attachPair hattach =>
    obtain ⟨workerName, driverName, e₁, e₂, -, -, hworker, hdriver⟩ :=
      Pair.attach_ok_split hattach
    exact hP _ _ (hP _ _ hx (.openNamed hworker)) (.openNamed hdriver)
  | attachPairFails => exact hx
  | send hk _ hsend =>
    obtain ⟨-, rfl⟩ := Store.sendBytes_ok hsend
    exact hP _ _ hx (.put hk)
  | sendFails _ hsend =>
    obtain rfl := Store.sendWritten_error hsend
    exact hx
  | receive hk hreceive =>
    rcases Store.receive_cases hreceive with ⟨hnil, -, rfl⟩ | ⟨m, rest, hcons, -, rfl⟩
    · rw [hnil, List.take_nil, List.map_nil, List.append_nil]
      exact hx
    · rw [hcons, List.take_succ_cons, List.take_zero]
      exact hP _ _ hx (.take hk hcons)
  | tryReceive hk hreceive =>
    rcases Store.tryReceive_cases hreceive with ⟨hnil, -, rfl⟩ | ⟨m, rest, hcons, -, rfl⟩
    · rw [hnil, List.take_nil, List.map_nil, List.append_nil]
      exact hx
    · rw [hcons, List.take_succ_cons, List.take_zero]
      exact hP _ _ hx (.take hk hcons)
  | drop hk => exact hP _ _ hx (.drop hk)
  | forget hk => exact hP _ _ hx (.forget hk)
  | unlink hunlink =>
    rcases Store.unlink_cases hunlink with rfl | ⟨n, hn, rfl⟩
    · exact hx
    · exact hP _ _ hx (.unbind hn)

/-- The open handles that have come with a new queue. -/
def creators (x : Session) : List Handle := x.handles.filter fun k => k.lifecycle = .createOnly

/-- The messages that have been sent to a queue, in order. -/
def sentTo (x : Session) (q : QueueId) : List Bytes :=
  x.log.filterMap fun
    | .sent k m => if k.queue = q then some m else none
    | _ => none

/-- The messages that have been taken from a queue, in order. -/
def receivedFrom (x : Session) (q : QueueId) : List Bytes :=
  x.log.filterMap fun
    | .received k m => if k.queue = q then some m else none
    | _ => none

/-! ## Runs -/

/-- No call is excluded. -/
def Anything (_ : Session) (_ : Call) : Prop := True

/-- Nobody unlinks a name under which an open handle has created its queue. -/
def Orderly (x : Session) : Call → Prop
  | .unlink name => ∀ n, normalize name = .ok n → ∀ k ∈ x.creators, k.name ≠ n
  | _ => True

/-- Nobody unlinks a name, and no program ends without dropping its handles. -/
def Regular (_ : Session) : Call → Prop
  | .unlink _ | .forget _ => False
  | _ => True

/-- Any number of calls of the allowed kind. -/
inductive Steps (allowed : Session → Call → Prop) (x : Session) : Session → Prop where
  | refl : Steps allowed x x
  | tail {y z : Session} {call : Call} :
      Steps allowed x y → allowed y call → Step call y z → Steps allowed x z

theorem Steps.trans {allowed : Session → Call → Prop} {x y z : Session}
    (h : Steps allowed x y) (k : Steps allowed y z) : Steps allowed x z := by
  induction k with
  | refl => exact h
  | tail _ hcall hstep ih => exact ih.tail hcall hstep

/-- A session that calls of the allowed kind lead to. -/
abbrev Reachable (allowed : Session → Call → Prop) (x : Session) : Prop := Steps allowed {} x

theorem Reachable.mono {allowed allowed' : Session → Call → Prop} {x : Session}
    (h : Reachable allowed x) (hall : ∀ y call, allowed y call → allowed' y call) :
    Reachable allowed' x := by
  induction h with
  | refl => exact .refl
  | tail _ hcall hstep ih => exact ih.tail (hall _ _ hcall) hstep

/-- A session without crashes and unlinked names is an orderly one. -/
theorem orderly_of_regular {x : Session} {call : Call} (h : Regular x call) : Orderly x call := by
  cases call with
  | unlink => exact h.elim
  | create | openNamed | createPair | attachPair | send | receive | drop | forget => exact trivial

/-! ## The log -/

variable {x y : Session} {s : Store} {k j : Handle} {c : Capacity} {q : QueueId} {n : String}

theorem mem_creators : k ∈ x.creators ↔ k ∈ x.handles ∧ k.lifecycle = .createOnly := by
  rw [creators, List.mem_filter, decide_eq_true_iff]

theorem creators_add (h : k.lifecycle = .createOnly) :
    (x.add s k c).creators = k :: x.creators := List.filter_cons_of_pos (decide_eq_true h)

theorem creators_attach (h : k.lifecycle = .openOnly) : (x.attach k).creators = x.creators :=
  List.filter_cons_of_neg (by simp [h])

theorem creators_detach : (x.detach k).creators = x.creators.erase k := List.erase_filter.symm

/-- A log with one more message sent. -/
theorem sentTo_send {m : Bytes} :
    sentTo { x with store := s, log := x.log ++ [.sent k m] } q =
      x.sentTo q ++ if k.queue = q then [m] else [] := by
  rw [sentTo, List.filterMap_append, sentTo]
  split
  · next hq => simp [hq]
  · next hq => simp [hq]

theorem receivedFrom_send {m : Bytes} :
    receivedFrom { x with store := s, log := x.log ++ [.sent k m] } q = x.receivedFrom q := by
  rw [receivedFrom, List.filterMap_append, receivedFrom]
  exact List.append_nil _

theorem sentTo_receive {m : Bytes} :
    sentTo { x with store := s, log := x.log ++ [.received k m] } q = x.sentTo q := by
  rw [sentTo, List.filterMap_append, sentTo]
  exact List.append_nil _

/-- A log with one more message taken. -/
theorem receivedFrom_receive {m : Bytes} :
    receivedFrom { x with store := s, log := x.log ++ [.received k m] } q =
      x.receivedFrom q ++ if k.queue = q then [m] else [] := by
  rw [receivedFrom, List.filterMap_append, receivedFrom]
  split
  · next hq => simp [hq]
  · next hq => simp [hq]

theorem sentTo_add : (x.add s k c).sentTo q = x.sentTo q := by
  rw [sentTo, add, List.filterMap_append, sentTo]
  exact List.append_nil _

theorem receivedFrom_add : (x.add s k c).receivedFrom q = x.receivedFrom q := by
  rw [receivedFrom, add, List.filterMap_append, receivedFrom]
  exact List.append_nil _

theorem mem_log_add {entry : Entry} :
    entry ∈ (x.add s k c).log ↔ entry ∈ x.log ∨ entry = .created k c := by
  rw [add, List.mem_append, List.mem_singleton]

/-! ## The invariant -/

/-- What a handle that has come with a new queue and the queue have in common. -/
structure Describes (s : Store) (k : Handle) (c : Capacity) : Prop where
  lifecycle : k.lifecycle = .createOnly
  normal : normalize k.name = .ok k.name
  unreserved : Store.isReserved k.name = false
  size : k.maxMessageSize = c.maxMessageSize.toNat
  limit : s.limit? k.queue = some c.maxMessageSize.toNat

/-- A handle leads to the queue that another one has come with. -/
structure Follows (k creator : Handle) : Prop where
  queue : k.queue = creator.queue
  name : k.name = creator.name
  size : k.maxMessageSize = creator.maxMessageSize
  /-- the one handle that is responsible for the queue -/
  eq : k.lifecycle = .createOnly → k = creator

/-- Queues, names and handles belong together, and no message is lost. -/
structure Inv (x : Session) : Prop where
  created : ∀ k c, .created k c ∈ x.log → Describes x.store k c
  unique : ∀ k c k' c', .created k c ∈ x.log → .created k' c' ∈ x.log → k.queue = k'.queue →
    k = k' ∧ c = c'
  bound : ∀ n q, x.store.find? n = some q → ∃ k c, .created k c ∈ x.log ∧ k.queue = q ∧ k.name = n
  attached : ∀ k ∈ x.handles, ∃ j c, .created j c ∈ x.log ∧ Follows k j
  distinct : (x.creators.map Handle.queue).Nodup
  accounts : ∀ q, x.receivedFrom q ++ x.store.pending q = x.sentTo q

theorem inv_start : Inv {} where
  created _ _ h := nomatch h
  unique _ _ _ _ h := nomatch h
  bound _ _ h := nomatch h
  attached _ h := nomatch h
  distinct := .nil
  accounts _ := rfl

theorem Inv.has (h : Inv x) (hk : .created k c ∈ x.log) : x.store.Has k.queue :=
  Store.has_of_limit? (h.created k c hk).limit

theorem Inv.has_of_mem (h : Inv x) (hk : k ∈ x.handles) : x.store.Has k.queue := by
  obtain ⟨j, c, hj, hfollows⟩ := h.attached k hk
  rw [hfollows.queue]
  exact h.has hj

/-- Two open handles that have come with the same queue are one. -/
theorem Inv.eq_of_queue_eq (h : Inv x) (hk : k ∈ x.creators) (hj : j ∈ x.creators)
    (hq : k.queue = j.queue) : k = j := by
  obtain ⟨hk, hk'⟩ := mem_creators.1 hk
  obtain ⟨hj, hj'⟩ := mem_creators.1 hj
  obtain ⟨a, c, ha, hka⟩ := h.attached k hk
  obtain ⟨b, c', hb, hjb⟩ := h.attached j hj
  rw [hka.eq hk', hjb.eq hj'] at hq ⊢
  exact (h.unique a c b c' ha hb hq).1

/-- A creator is there once, so it is gone when it is detached. -/
theorem Inv.mem_creators_detach (h : Inv x) :
    j ∈ (x.detach k).creators ↔ j ≠ k ∧ j ∈ x.creators := by
  rw [creators_detach, (List.Nodup.of_map Handle.queue h.distinct).mem_erase_iff]

/-- An open handle that has come with a queue is in the log. -/
theorem Inv.created_of_mem (h : Inv x) (hk : k ∈ x.creators) : ∃ c, .created k c ∈ x.log := by
  obtain ⟨hk, hlifecycle⟩ := mem_creators.1 hk
  obtain ⟨j, c, hj, hfollows⟩ := h.attached k hk
  rw [hfollows.eq hlifecycle]
  exact ⟨c, hj⟩

/-- A name that is bound can be opened, and leads to its queue. -/
theorem Inv.opens {name : String} (h : Inv x) (hname : normalize name = .ok n)
    (hq : x.store.find? n = some q) :
    ∃ o es, x.store.openNamed name = (.ok o, es) ∧ o.queue = q := by
  obtain ⟨k, c, hk, -, rfl⟩ := h.bound n q hq
  obtain ⟨o, es, hopen⟩ :=
    (Store.openNamed_succeeds_iff hname).2 ⟨(h.created k c hk).unreserved, q, hq⟩
  obtain ⟨m, p, hm, -, hp, ho, -, -⟩ := Store.openNamed_ok hopen
  rw [hname, Except.ok.injEq] at hm
  rw [← hm, hq, Option.some.injEq] at hp
  exact ⟨o, es, hopen, ho.trans hp.symm⟩

/-! ## What the calls preserve -/

/-- A new queue is none of those that were there, and its name was free. -/
theorem Inv.create {name : String} {kernel : Kernel} {es : List Event} (h : Inv x)
    (hs : x.store.create name c kernel = (.ok k, s, es)) : Inv (x.add s k c) := by
  obtain ⟨n, hn, hreserved, hfree, -, hk, rfl⟩ := Store.create_ok hs
  have hqueue : k.queue = x.store.queues.length := by rw [hk]
  have hlimit : ∀ q, x.store.Has q → ∀ m, x.store.limit? q = some m →
      (x.store.withQueue n c).limit? q = some m :=
    fun q hq m hm => (Store.limit?_grow hq).trans hm
  have hnew : ∀ j c', .created j c' ∈ x.log → j.queue ≠ k.queue := fun j c' hj => by
    rw [hqueue]
    exact Nat.ne_of_lt (h.has hj)
  refine ⟨?_, ?_, ?_, ?_, ?_, ?_⟩
  · intro j c' hj
    rcases mem_log_add.1 hj with hj | hj
    · have hold := h.created j c' hj
      exact { hold with limit := hlimit _ (h.has hj) _ hold.limit }
    · cases hj
      subst hk
      exact ⟨rfl, normalize_of_normalize hn, hreserved, rfl, by simp [Store.limit?, add]⟩
  · intro a ca b cb ha hb hab
    rcases mem_log_add.1 ha with ha | ha
    · rcases mem_log_add.1 hb with hb | hb
      · exact h.unique a ca b cb ha hb hab
      · cases hb
        exact absurd hab (hnew a ca ha)
    · cases ha
      rcases mem_log_add.1 hb with hb | hb
      · exact absurd hab.symm (hnew b cb hb)
      · cases hb
        exact ⟨rfl, rfl⟩
  · intro m q hm
    have hm : ((n, x.store.queues.length) :: x.store.names).lookup m = some q := hm
    rw [List.lookup_cons] at hm
    split at hm
    · next hmn =>
      cases hm
      refine ⟨k, c, mem_log_add.2 (.inr rfl), hqueue, ?_⟩
      rw [hk]
      exact (eq_of_beq hmn).symm
    · obtain ⟨j, c', hj, hbound⟩ := h.bound m q hm
      exact ⟨j, c', mem_log_add.2 (.inl hj), hbound⟩
  · intro j hj
    rcases List.mem_cons.1 hj with rfl | hj
    · exact ⟨j, c, mem_log_add.2 (.inr rfl), rfl, rfl, rfl, fun _ => rfl⟩
    · obtain ⟨a, ca, ha, hfollows⟩ := h.attached j hj
      exact ⟨a, ca, mem_log_add.2 (.inl ha), hfollows⟩
  · rw [creators_add (by rw [hk]), List.map_cons, List.nodup_cons]
    refine ⟨fun hmem => ?_, h.distinct⟩
    obtain ⟨j, hj, hjk⟩ := List.mem_map.1 hmem
    obtain ⟨c', hj⟩ := h.created_of_mem hj
    exact hnew j c' hj hjk
  · intro q
    rw [receivedFrom_add, sentTo_add, ← h.accounts q]
    exact congrArg _ (Store.pending_grow (List.forall_mem_singleton.2 rfl))

/-- Whoever opens a name follows the handle that the queue behind it has come with. -/
theorem Inv.openNamed {name : String} {es : List Event} (h : Inv x)
    (hs : x.store.openNamed name = (.ok k, es)) : Inv (x.attach k) := by
  obtain ⟨n, q, -, -, hq, hqueue, hname, hlifecycle⟩ := Store.openNamed_ok hs
  refine ⟨h.created, h.unique, h.bound, ?_, ?_, h.accounts⟩
  · intro j hj
    rcases List.mem_cons.1 hj with rfl | hj
    · obtain ⟨a, c, ha, haq, han⟩ := h.bound n q hq
      have hdescribes := h.created a c ha
      refine ⟨a, c, ha, by rw [hqueue, haq], by rw [hname, han], ?_, ?_⟩
      · rw [hdescribes.size]
        refine Store.openNamed_limit? hs ?_
        rw [hqueue, ← haq]
        exact hdescribes.limit
      · rw [hlifecycle]
        exact nofun
    · exact h.attached j hj
  · rw [creators_attach hlifecycle]
    exact h.distinct

/-- Queues that are left without a name change nothing for the others. -/
theorem Inv.grow {fifos : List Fifo} (h : Inv x) (hfifos : ∀ fifo ∈ fifos, fifo.messages = []) :
    Inv { x with store := x.store.grow fifos } where
  created k c hk :=
    let hold := h.created k c hk
    { hold with limit := (Store.limit?_grow (h.has hk)).trans hold.limit }
  unique := h.unique
  bound := h.bound
  attached := h.attached
  distinct := h.distinct
  accounts q := (congrArg _ (Store.pending_grow hfifos)).trans (h.accounts q)

/-- Names may go. -/
theorem Inv.removeName (h : Inv x) (n : String) :
    Inv { x with store := x.store.removeName n } where
  created k c hk := { h.created k c hk with }
  unique := h.unique
  bound m q hm := by
    have hm : (x.store.removeName n).find? m = some q := hm
    rw [Store.find?_removeName] at hm
    split at hm
    · cases hm
    · exact h.bound m q hm
  attached := h.attached
  distinct := h.distinct
  accounts := h.accounts

/-- Handles may go. -/
theorem Inv.detach (h : Inv x) (k : Handle) : Inv (x.detach k) where
  created := h.created
  unique := h.unique
  bound := h.bound
  attached j hj := h.attached j (List.mem_of_mem_erase hj)
  distinct := by
    have hsub : (x.detach k).creators.Sublist x.creators := (List.erase_sublist).filter _
    exact h.distinct.sublist (hsub.map Handle.queue)
  accounts := h.accounts

/-- Messages come and go: as long as no queue is said to have been created, the messages that wait
have to match the log, and nothing else has to be seen to. -/
theorem Inv.setPending {ms : List Bytes} {log : List Entry} (h : Inv x)
    (hlog : ∀ j c, .created j c ∈ log → .created j c ∈ x.log)
    (hlog' : ∀ entry ∈ x.log, entry ∈ log)
    (haccounts : ∀ p, receivedFrom { x with log := log } p ++ (x.store.setPending q ms).pending p =
      sentTo { x with log := log } p) :
    Inv { x with store := x.store.setPending q ms, log := log } where
  created j c hj :=
    let hold := h.created j c (hlog j c hj)
    { hold with limit := Store.limit?_setPending.trans hold.limit }
  unique j c j' c' hj hj' := h.unique j c j' c' (hlog j c hj) (hlog j' c' hj')
  bound m p hm :=
    let ⟨j, c, hj, hbound⟩ := h.bound m p hm
    ⟨j, c, hlog' _ hj, hbound⟩
  attached j hj :=
    let ⟨i, c, hi, hfollows⟩ := h.attached j hj
    ⟨i, c, hlog' _ hi, hfollows⟩
  distinct := h.distinct
  accounts := haccounts

/-- What is put at the end of a queue is the last that has been sent to it. -/
theorem Inv.send {m : Bytes} (h : Inv x) (hk : k ∈ x.handles) :
    Inv { x with store := x.store.push k.queue m, log := x.log ++ [.sent k m] } := by
  refine h.setPending (fun j c hj => ?_) (fun _ hentry => List.mem_append_left _ hentry)
    fun p => ?_
  · simpa using hj
  · have hsent := sentTo_send (x := x) (s := x.store) (k := k) (q := p) (m := m)
    have hreceived := receivedFrom_send (x := x) (s := x.store) (k := k) (q := p) (m := m)
    rw [hsent, hreceived, ← h.accounts p, List.append_assoc]
    split
    · next hp =>
      subst hp
      rw [Store.pending_setPending (h.has_of_mem hk)]
    · next hp => rw [Store.pending_setPending_of_ne (Ne.symm hp), List.append_nil]

/-- What is taken off the front of a queue is the next of what has been sent to it. -/
theorem Inv.receive {m : Bytes} {rest : List Bytes} (h : Inv x) (hk : k ∈ x.handles)
    (hq : x.store.pending k.queue = m :: rest) :
    Inv { x with
      store := x.store.setPending k.queue rest, log := x.log ++ [.received k m] } := by
  refine h.setPending (fun j c hj => ?_) (fun _ hentry => List.mem_append_left _ hentry)
    fun p => ?_
  · simpa using hj
  · have hsent := sentTo_receive (x := x) (s := x.store) (k := k) (q := p) (m := m)
    have hreceived := receivedFrom_receive (x := x) (s := x.store) (k := k) (q := p) (m := m)
    rw [hsent, hreceived, ← h.accounts p, List.append_assoc]
    split
    · next hp =>
      subst hp
      rw [Store.pending_setPending (h.has_of_mem hk), hq, List.singleton_append]
    · next hp => rw [Store.pending_setPending_of_ne (Ne.symm hp), List.nil_append]

theorem Inv.effect {call : Call} (h : Inv x) (he : Effect call x y) : Inv y := by
  cases he with
  | create hcreate => exact h.create hcreate
  | openNamed hopen => exact h.openNamed hopen
  | abandon hfifos => exact h.grow hfifos
  | put hk => exact h.send hk
  | take hk hcons => exact h.receive hk hcons
  | @drop _ k hk =>
    rw [Store.drop_eq]
    cases k.lifecycle with
    | createOnly => exact (h.detach k).removeName k.name
    | openOnly => exact h.detach k
  | forget => exact h.detach _
  | unbind => exact h.removeName _

/-- **Every call preserves the invariant.** -/
theorem Inv.step {call : Call} (h : Inv x) (hs : Step call x y) : Inv y :=
  hs.preserves (fun _ _ hx he => hx.effect he) h

theorem Inv.steps {allowed : Session → Call → Prop} (h : Inv x) (hs : Steps allowed x y) :
    Inv y := by
  induction hs with
  | refl => exact h
  | tail _ _ hstep ih => exact ih.step hstep

theorem Reachable.inv {allowed : Session → Call → Prop} (h : Reachable allowed x) : Inv x :=
  inv_start.steps h

/-- What has happened stays in the log. -/
theorem Steps.log_subset {allowed : Session → Call → Prop} (hs : Steps allowed x y) :
    ∀ entry ∈ x.log, entry ∈ y.log := by
  induction hs with
  | refl => exact fun _ hentry => hentry
  | tail _ _ hstep ih =>
    refine hstep.preserves (P := fun z => ∀ entry ∈ x.log, entry ∈ z.log) (fun z w hz he => ?_) ih
    cases he with
    | create => exact fun entry hentry => mem_log_add.2 (.inl (hz entry hentry))
    | put | take => exact fun entry hentry => List.mem_append_left _ (hz entry hentry)
    | openNamed | abandon | drop | forget | unbind => exact hz

/-! ## A name that changes hands -/

/-- The handle that comes with the first or the second queue named `q`. -/
def owner (q : QueueId) : Handle := ⟨q, "/q", .createOnly, 4⟩

/-- A handle on the first of these queues, from somebody who has opened it. -/
def opener : Handle := ⟨0, "/q", .openOnly, 4⟩

/-- A queue with a one in it, and both handles on it. -/
def shared : Session where
  store := { queues := [⟨2, 4, [[0x31]]⟩], names := [("/q", 0)] }
  handles := [opener, owner 0]
  log := [.created (owner 0) ⟨2, 4⟩, .sent (owner 0) [0x31]]

/-- The same after the name has been unlinked and another queue has been created under it. -/
def handedOn : Session where
  store := { queues := [⟨2, 4, [[0x31]]⟩, ⟨2, 4, []⟩], names := [("/q", 1)] }
  handles := [owner 1, opener, owner 0]
  log := [.created (owner 0) ⟨2, 4⟩, .sent (owner 0) [0x31], .created (owner 1) ⟨2, 4⟩]

theorem reachable_shared : Reachable Regular shared := by
  have hnew : Store.create {} "q" ⟨2, 4⟩ = (.ok (owner 0), _, _) :=
    Prod.ext (by decide +kernel) rfl
  have hcreate : Step (.create "q" ⟨2, 4⟩) {} _ := .create hnew
  have hopen : Step (.openNamed "/q") _ _ :=
    .openNamed (x := add {} ⟨[⟨2, 4, []⟩], [("/q", 0)]⟩ (owner 0) ⟨2, 4⟩) (k := opener)
      (Prod.ext (by decide +kernel) rfl)
  have hsend : Step (.send (owner 0)) _ shared :=
    .send (x := (add {} ⟨[⟨2, 4, []⟩], [("/q", 0)]⟩ (owner 0) ⟨2, 4⟩).attach opener) (m := [0x31])
      (by decide +kernel) (by decide +kernel) (Store.sendBytes_of_le (by decide +kernel))
  refine ((Steps.refl.tail ?_ hcreate).tail ?_ hopen).tail ?_ hsend
  all_goals exact trivial

theorem steps_handedOn : Steps Anything shared handedOn := by
  have hunlink : Step (.unlink "q") shared { shared with store.names := [] } :=
    .unlink (Prod.ext (by decide +kernel) rfl)
  have hnew : Store.create { shared.store with names := [] } "q" ⟨2, 4⟩ =
      (.ok (owner 1), handedOn.store, _) := Prod.ext (by decide +kernel) rfl
  have hcreate : Step (.create "q" ⟨2, 4⟩) { shared with store.names := [] } handedOn :=
    .create hnew
  exact (Steps.refl.tail trivial hunlink).tail trivial hcreate

theorem reachable_handedOn : Reachable Anything handedOn :=
  (reachable_shared.mono fun _ _ _ => trivial).trans steps_handedOn

end Session

end IndexFeed.Queue
