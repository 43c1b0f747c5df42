import Mathlib.Data.List.Forall2
import IndexFeed.Proofs.Queue.Pair
import IndexFeed.Queue.Worker

/-!
# Conversations

A driver and a worker over the two queues of a pair, each going on whenever it can.  The driver
sends what it likes and takes replies off the other queue; the worker attaches, announces itself,
and then receives and replies in turn.  A message is sent only where there is room for it, and a
receive that finds nothing has waited in vain.

Every step is one call of the store by one of the two sides, so the steps of the two interleave in
any order.  `Conversation.Inv` is what all of them preserve: no message gets lost, doubled or out of
order on either queue, and each one that the worker has taken has its one reply.
-/

set_option autoImplicit false

namespace IndexFeed.Queue

/-- The octets of a reply as a message. -/
def Reply.bytes (r : Reply) : Bytes := Store.encode r.toJson

namespace Worker

/-- What the result of a receive is to a worker. -/
def Received.ofResult : Except Error Task → Received
  | .ok t => .task t
  | .error e => if e.isTimeout then .nothing else .invalid e

theorem Received.ofResult_timedOut (wait : Span) : ofResult (.error (.timedOut wait)) = .nothing :=
  rfl

theorem Received.ofResult_decode (m : Bytes) :
    ofResult (Store.decode Task.decoder m) = ofMessage m := by
  unfold ofMessage
  cases h : Store.decode Task.decoder m with
  | ok t => rfl
  | error e =>
    have he : e.isTimeout = false := Store.isTimeout_of_decode h
    simp only [ofResult, he, Bool.false_eq_true, if_false]

/-- Where a worker is in its life. -/
inductive Phase where
  | detached
  /-- both queues are open, and the worker has not announced itself -/
  | attached
  /-- about to receive -/
  | waiting (s : State)
  /-- between a receive and the reply to it -/
  | replying (reply : Reply) (s : State)
  | exited (result : Except Error Report)
  deriving Repr

namespace Phase

/-- The phase that a reaction leads to. -/
def behind : Reaction → Phase
  | .proceed none s _ => .waiting s
  | .proceed (some reply) s _ => .replying reply s
  | .stop report _ => .exited (.ok report)

/-- The reply that is still to be sent, if there is one. -/
def unsent : Phase → List Reply
  | .replying reply _ => [reply]
  | _ => []

/-- The worker has announced itself and has not stopped. -/
def serves : Phase → Bool
  | .waiting _ | .replying _ _ => true
  | _ => false

end Phase

/-- The reply that a message is due: a task to index is answered under its number, and what is no
task is rejected.  The end of the run is not answered. -/
def Answers (m : Bytes) (r : Reply) : Prop :=
  match Store.decode Task.decoder m with
  | .ok (.index jobId command) => r = handleIndex jobId command ∧
      ((∃ file count, r = .indexed jobId file count) ∨ ∃ text, r = .failed jobId text)
  | .ok .shutdown => False
  | .error e => r = .rejected e.message

theorem handleIndex_cases (jobId : UInt64) (command : CompileCommand) :
    (∃ file count, handleIndex jobId command = .indexed jobId file count) ∨
      ∃ text, handleIndex jobId command = .failed jobId text := by
  unfold handleIndex
  dsimp only
  split
  · exact .inr ⟨_, rfl⟩
  · exact .inl ⟨_, _, rfl⟩

/-- A message that has been taken is about to be answered, unless it ends the run. -/
theorem behind_react_message (o : Options) (t : State) (m : Bytes) :
    (∃ r t', Phase.behind (react o t (.ofMessage m)) = .replying r t' ∧ Answers m r) ∨
      (Store.decode Task.decoder m = .ok .shutdown ∧
        Phase.behind (react o t (.ofMessage m)) =
          .exited (.ok ⟨.shutdown, t.indexed, t.failed⟩)) := by
  unfold Received.ofMessage Answers
  cases Store.decode Task.decoder m with
  | error e => exact .inl ⟨_, t, rfl, rfl⟩
  | ok task =>
    cases task with
    | shutdown => exact .inr ⟨rfl, rfl⟩
    | index jobId command =>
      refine .inl ⟨handleIndex jobId command, _, rfl, rfl, handleIndex_cases jobId command⟩

theorem behind_react_nothing (o : Options) (t : State) :
    (∃ t', Phase.behind (react o t .nothing) = .waiting t') ∨
      Phase.behind (react o t .nothing) = .exited (.ok ⟨.idle, t.indexed, t.failed⟩) := by
  simp only [react]
  split
  · exact .inr rfl
  · exact .inl ⟨_, rfl⟩

end Worker

open Worker (State Report Received Phase Answers react)

/-- A driver and a worker, with what has gone through their queues so far. -/
structure Conversation where
  store : Store
  phase : Phase := .detached
  /-- the messages that the driver has sent -/
  sent : List Bytes := []
  /-- the messages that the worker has taken -/
  consumed : List Bytes := []
  /-- the replies that the driver has taken -/
  received : List Bytes := []
  deriving Repr

namespace Conversation

/-- One step of either side; `d` is the pair of the driver and `w` that of the worker. -/
inductive Step (o : Options) (d w : Pair) : Conversation → Conversation → Prop where
  /-- The driver sends a message for which there is room. -/
  | send {x : Conversation} {m : Bytes} {s : Store} {es : List Event} :
      x.store.isFull d.toWorker.queue = false →
      x.store.sendBytes d.toWorker m = (.ok (), s, es) →
      Step o d w x { x with store := s, sent := x.sent ++ [m] }
  /-- The driver tries to send a message that is too large. -/
  | sendFails {x : Conversation} {m : Bytes} {e : Error} {s : Store} {es : List Event} :
      x.store.sendBytes d.toWorker m = (.error e, s, es) →
      Step o d w x { x with store := s }
  /-- The driver receives, or waits for a reply in vain. -/
  | receive {x : Conversation} {α : Type} {D : Json.Decoder α} {wait : Span}
      {res : Except Error α} {s : Store} {es : List Event} :
      x.store.receive d.toDriver D wait = (res, s, es) →
      Step o d w x { x with
        store := s, received := x.received ++ (x.store.pending d.toDriver.queue).take 1 }
  /-- The worker opens the queues of its driver. -/
  | attach {x : Conversation} {es : List Event} : x.phase = .detached →
      Pair.attach x.store o = (.ok w, es) → Step o d w x { x with phase := .attached }
  /-- The worker announces itself. -/
  | announce {x : Conversation} {s : Store} {es : List Event} : x.phase = .attached →
      x.store.isFull w.toDriver.queue = false →
      x.store.send w.toDriver (Reply.ready o.workerId).toJson = (.ok (), s, es) →
      Step o d w x { x with store := s, phase := .waiting {} }
  /-- The worker cannot announce itself: its message is too large. -/
  | announceFails {x : Conversation} {e : Error} {s : Store} {es : List Event} :
      x.phase = .attached →
      x.store.send w.toDriver (Reply.ready o.workerId).toJson = (.error e, s, es) →
      Step o d w x { x with store := s, phase := .exited (.error e) }
  /-- The worker receives, or waits for a message in vain. -/
  | take {x : Conversation} {t : State} {res : Except Error Task} {s : Store}
      {es : List Event} : x.phase = .waiting t →
      x.store.receive w.toWorker Task.decoder o.receiveTimeout = (res, s, es) →
      Step o d w x { x with
        store := s, phase := .behind (react o t (.ofResult res)),
        consumed := x.consumed ++ (x.store.pending w.toWorker.queue).take 1 }
  /-- The worker sends the reply to what it has received. -/
  | reply {x : Conversation} {r : Reply} {t : State} {s : Store} {es : List Event} :
      x.phase = .replying r t → x.store.isFull w.toDriver.queue = false →
      x.store.send w.toDriver r.toJson = (.ok (), s, es) →
      Step o d w x { x with store := s, phase := .waiting t }
  /-- The worker cannot reply: its message is too large. -/
  | replyFails {x : Conversation} {r : Reply} {t : State} {e : Error} {s : Store}
      {es : List Event} : x.phase = .replying r t →
      x.store.send w.toDriver r.toJson = (.error e, s, es) →
      Step o d w x { x with store := s, phase := .exited (.error e) }

/-- Any number of steps. -/
inductive Steps (o : Options) (d w : Pair) : Conversation → Conversation → Prop where
  | refl {x : Conversation} : Steps o d w x x
  | tail {x y z : Conversation} : Steps o d w x y → Step o d w y z → Steps o d w x z

theorem Steps.trans {o : Options} {d w : Pair} {x y z : Conversation} (h : Steps o d w x y)
    (k : Steps o d w y z) : Steps o d w x z := by
  induction k with
  | refl => exact h
  | tail _ hstep ih => exact .tail ih hstep

/-- A conversation that has begun with the creation of the driver's pair, in any store of any system. -/
def Reachable (o : Options) (d w : Pair) (x : Conversation) : Prop :=
  ∃ s₀ kernel s es, Pair.create s₀ o kernel = (.ok d, s, es) ∧ Steps o d w { store := s } x

variable {o : Options} {d w : Pair} {x y z : Conversation}

/-- The replies sent so far: those that the driver has taken and those that wait for it. -/
def replies (d : Pair) (x : Conversation) : List Bytes :=
  x.received ++ x.store.pending d.toDriver.queue

/-! ## Steps that can be taken -/

/-- The worker takes the oldest message. -/
theorem Step.take_message {t : State} {m : Bytes} {rest : List Bytes} {res : Except Error Task}
    (hx : x.phase = .waiting t) (hq : x.store.pending w.toWorker.queue = m :: rest)
    (hd : Store.decode Task.decoder m = res) :
    Step o d w x { x with
      store := x.store.setPending w.toWorker.queue rest,
      phase := .behind (react o t (.ofResult res)), consumed := x.consumed ++ [m] } := by
  have htake := Step.take (o := o) (d := d) hx (Store.receive_of_cons hq)
  rw [hq, hd] at htake
  exact htake

/-- The worker waits in vain. -/
theorem Step.take_nothing {t : State} (hx : x.phase = .waiting t)
    (hq : x.store.pending w.toWorker.queue = []) :
    Step o d w x { x with phase := .behind (react o t .nothing) } := by
  have htake := Step.take (o := o) (d := d) hx (Store.receive_of_nil hq)
  rw [hq, List.take_nil, List.append_nil] at htake
  exact htake

/-- The worker sends a reply for which there is room. -/
theorem Step.reply_of_le {r : Reply} {t : State} (hx : x.phase = .replying r t)
    (hroom : x.store.isFull w.toDriver.queue = false)
    (hr : r.bytes.length ≤ w.toDriver.maxMessageSize) :
    Step o d w x { x with store := x.store.push w.toDriver.queue r.bytes, phase := .waiting t } :=
  .reply hx hroom (Store.sendBytes_of_le hr)

/-! ## The invariant -/

/-- The worker has announced itself, and of the messages that it has taken each has its one reply,
sent or still unsent, in order. -/
def Answered (o : Options) (consumed : List Bytes) (unsent : List Reply) (replies : List Bytes) :
    Prop :=
  ∃ rs, List.Forall₂ Answers consumed rs ∧
    replies ++ unsent.map Reply.bytes = (Reply.ready o.workerId :: rs).map Reply.bytes

/-- How the messages taken and the replies sent go together in each phase of the worker. -/
def Settled (o : Options) (consumed replies : List Bytes) : Phase → Prop
  | .detached | .attached => consumed = [] ∧ replies = []
  | .waiting _ => Answered o consumed [] replies
  | .replying r _ => Answered o consumed [r] replies
  | .exited (.ok ⟨.idle, _, _⟩) => Answered o consumed [] replies
  | .exited (.ok ⟨.shutdown, _, _⟩) => ∃ ms m, consumed = ms ++ [m] ∧
      Store.decode Task.decoder m = .ok .shutdown ∧ Answered o ms [] replies
  | .exited (.error _) => consumed = [] ∧ replies = [] ∨ ∃ r, Answered o consumed [r] replies

/-- What every step of a conversation preserves. -/
structure Inv (o : Options) (d w : Pair) (x : Conversation) : Prop where
  stands : Pair.Stands x.store d
  named : Pair.Named x.store.names o d
  shares : x.phase ≠ .detached → Pair.Shares d w
  sent : x.sent = x.consumed ++ x.store.pending d.toWorker.queue
  settled : Settled o x.consumed (x.replies d) x.phase

theorem Answered.sent {consumed replies : List Bytes} {r : Reply}
    (h : Answered o consumed [r] replies) : Answered o consumed [] (replies ++ [r.bytes]) := by
  obtain ⟨rs, hrs, heq⟩ := h
  exact ⟨rs, hrs, by simpa using heq⟩

/-- One more message has been taken, and its reply is to be sent. -/
theorem Answered.taken {consumed replies : List Bytes} {m : Bytes} {r : Reply}
    (h : Answered o consumed [] replies) (hr : Answers m r) :
    Answered o (consumed ++ [m]) [r] replies := by
  obtain ⟨rs, hrs, heq⟩ := h
  refine ⟨rs ++ [r], List.rel_append hrs (.cons hr .nil), ?_⟩
  rw [List.map_nil, List.append_nil] at heq
  rw [heq]
  simp

theorem stands_setPending {s : Store} {q : QueueId} {ms : List Bytes} (h : Pair.Stands s d) :
    Pair.Stands (s.setPending q ms) d :=
  ⟨Store.has_setPending.2 h.hasToWorker, Store.has_setPending.2 h.hasToDriver, h.ne⟩

/-! What one call on a queue does to the replies sent so far. -/

theorem replies_send {m : Bytes} (h : Pair.Stands x.store d) :
    replies d { x with
      store := x.store.push d.toWorker.queue m, sent := x.sent ++ [m] } = x.replies d := by
  simp only [replies, Store.pending_push_of_ne h.ne.symm]

theorem replies_receive {m : Bytes} {rest : List Bytes} (h : Pair.Stands x.store d)
    (hq : x.store.pending d.toDriver.queue = m :: rest) :
    replies d { x with
      store := x.store.setPending d.toDriver.queue rest,
      received := x.received ++ [m] } = x.replies d := by
  simp only [replies, Store.pending_setPending h.hasToDriver, hq, List.append_assoc,
    List.singleton_append]

theorem replies_take {m : Bytes} {rest : List Bytes} {phase : Phase}
    (h : Pair.Stands x.store d) :
    replies d { x with
      store := x.store.setPending d.toWorker.queue rest, phase := phase,
      consumed := x.consumed ++ [m] } = x.replies d := by
  simp only [replies, Store.pending_setPending_of_ne h.ne.symm]

theorem replies_reply {m : Bytes} {phase : Phase} (h : Pair.Stands x.store d) :
    replies d { x with
      store := x.store.push d.toDriver.queue m, phase := phase } = x.replies d ++ [m] := by
  simp only [replies, Store.pending_push h.hasToDriver, List.append_assoc]

/-- A message more for the driver, from a worker that goes on to another phase. -/
theorem Inv.pushToDriver {m : Bytes} {phase : Phase} (h : Inv o d w x) (hx : x.phase ≠ .detached)
    (hs : Settled o x.consumed (x.replies d ++ [m]) phase) :
    Inv o d w { x with store := x.store.push w.toDriver.queue m, phase := phase } := by
  have hshares := h.shares hx
  rw [hshares.toDriver]
  refine ⟨stands_setPending h.stands, h.named, fun _ => hshares, ?_, ?_⟩
  · dsimp only
    rw [Store.pending_push_of_ne h.stands.ne]
    exact h.sent
  · rw [replies_reply h.stands]
    exact hs

theorem Inv.phase_of_store {s : Store} {phase : Phase} (h : Inv o d w x) (hx : x.phase ≠ .detached)
    (hstore : s = x.store) (hs : Settled o x.consumed (x.replies d) phase) :
    Inv o d w { x with store := s, phase := phase } := by
  subst hstore
  exact ⟨h.stands, h.named, fun _ => h.shares hx, h.sent, hs⟩

/-- The worker takes the oldest message, or none has come. -/
theorem Inv.take {t : State} {res : Except Error Task} {s : Store} {es : List Event}
    (h : Inv o d w x) (hx : x.phase = .waiting t)
    (hs : x.store.receive w.toWorker Task.decoder o.receiveTimeout = (res, s, es)) :
    Inv o d w { x with
      store := s, phase := .behind (react o t (.ofResult res)),
      consumed := x.consumed ++ (x.store.pending w.toWorker.queue).take 1 } := by
  have hshares : Pair.Shares d w := h.shares (by rw [hx]; exact nofun)
  have hsettled : Answered o x.consumed [] (x.replies d) := by
    have hsettled := h.settled
    rwa [hx] at hsettled
  rw [hshares.toWorker]
  rcases Store.receive_cases hs with ⟨hnil, rfl, rfl⟩ | ⟨m, rest, hcons, rfl, rfl⟩
  · rw [hshares.toWorker] at hnil
    rw [hnil, List.take_nil, List.append_nil]
    refine ⟨h.stands, h.named, fun _ => hshares, h.sent, ?_⟩
    rw [Received.ofResult_timedOut]
    rcases Worker.behind_react_nothing o t with ⟨t', ht⟩ | ht
    · rw [ht]
      exact hsettled
    · rw [ht]
      exact hsettled
  · rw [hshares.toWorker] at hcons ⊢
    rw [hcons, List.take_succ_cons, List.take_zero, Received.ofResult_decode]
    refine ⟨stands_setPending h.stands, h.named, fun _ => hshares, ?_, ?_⟩
    · dsimp only
      rw [Store.pending_setPending h.stands.hasToWorker, h.sent, hcons]
      simp
    · rw [replies_take h.stands]
      dsimp only
      rcases Worker.behind_react_message o t m with ⟨r, t', ht, hr⟩ | ⟨hshutdown, ht⟩
      · rw [ht]
        exact hsettled.taken hr
      · rw [ht]
        exact ⟨x.consumed, m, rfl, hshutdown, hsettled⟩

/-- **Every step preserves the invariant.** -/
theorem Inv.step (h : Inv o d w x) (hs : Step o d w x y) : Inv o d w y := by
  cases hs with
  | @send m s es _ hsend =>
    obtain ⟨-, rfl⟩ := Store.sendBytes_ok hsend
    refine ⟨stands_setPending h.stands, h.named, h.shares, ?_, ?_⟩
    · dsimp only
      rw [Store.pending_push h.stands.hasToWorker, h.sent, List.append_assoc]
    · rw [replies_send h.stands]
      exact h.settled
  | sendFails hsend =>
    obtain rfl := Store.sendBytes_error hsend
    exact h
  | receive hreceive =>
    rcases Store.receive_cases hreceive with ⟨hnil, -, rfl⟩ | ⟨m, rest, hcons, -, rfl⟩
    · rw [hnil, List.take_nil, List.append_nil]
      exact h
    · rw [hcons, List.take_succ_cons, List.take_zero]
      refine ⟨stands_setPending h.stands, h.named, h.shares, ?_, ?_⟩
      · dsimp only
        rw [Store.pending_setPending_of_ne h.stands.ne]
        exact h.sent
      · rw [replies_receive h.stands hcons]
        exact h.settled
  | attach hphase hattach =>
    refine ⟨h.stands, h.named, fun _ => Pair.shares_of_attach hattach h.named, h.sent, ?_⟩
    have hsettled := h.settled
    rw [hphase] at hsettled
    exact hsettled
  | announce hphase _ hsend =>
    obtain ⟨-, rfl⟩ := Store.sendBytes_ok hsend
    have hsettled := h.settled
    rw [hphase] at hsettled
    obtain ⟨hconsumed, hreplies⟩ := hsettled
    refine h.pushToDriver (by rw [hphase]; exact nofun) ⟨[], ?_, ?_⟩
    · rw [hconsumed]
      exact .nil
    · rw [hreplies]
      rfl
  | announceFails hphase hsend =>
    have hsettled := h.settled
    rw [hphase] at hsettled
    exact h.phase_of_store (by rw [hphase]; exact nofun) (Store.sendBytes_error hsend)
      (.inl hsettled)
  | take hphase hreceive => exact h.take hphase hreceive
  | reply hphase _ hsend =>
    obtain ⟨-, rfl⟩ := Store.sendBytes_ok hsend
    have hsettled := h.settled
    rw [hphase] at hsettled
    exact h.pushToDriver (by rw [hphase]; exact nofun) (Answered.sent hsettled)
  | @replyFails r t e s es hphase hsend =>
    have hsettled := h.settled
    rw [hphase] at hsettled
    exact h.phase_of_store (by rw [hphase]; exact nofun) (Store.sendBytes_error hsend)
      (.inr ⟨r, hsettled⟩)

theorem Inv.steps (h : Inv o d w x) (hs : Steps o d w x y) : Inv o d w y := by
  induction hs with
  | refl => exact h
  | tail _ hstep ih => exact ih.step hstep

theorem inv_of_create {kernel : Kernel} {s₀ s : Store} {es : List Event}
    (h : Pair.create s₀ o kernel = (.ok d, s, es)) : Inv o d w { store := s } := by
  obtain ⟨hstands, hnamed, hworker, hdriver⟩ := Pair.create_spec h
  exact ⟨hstands, hnamed, fun hne => absurd rfl hne, hworker.symm, rfl, by simp [replies, hdriver]⟩

theorem Reachable.inv (h : Reachable o d w x) : Inv o d w x := by
  obtain ⟨s₀, kernel, s, es, hcreate, hsteps⟩ := h
  exact (inv_of_create hcreate).steps hsteps

/-! ## Behind the end of the run -/

/-- A message that ends the run has no reply. -/
theorem not_shutdown_of_answers {ms : List Bytes} {rs : List Reply} {m : Bytes}
    (h : List.Forall₂ Answers ms rs) (hm : m ∈ ms) :
    Store.decode Task.decoder m ≠ .ok .shutdown := by
  intro hd
  induction h with
  | nil => cases hm
  | cons ha _ ih =>
    rcases List.mem_cons.1 hm with rfl | hm
    · rw [Answers, hd] at ha
      exact ha
    · exact ih hm

/-- A worker that has taken the end of the run has stopped. -/
theorem Inv.exited_of_shutdown {m : Bytes} (h : Inv o d w x) (hm : m ∈ x.consumed)
    (hd : Store.decode Task.decoder m = .ok .shutdown) : ∃ res, x.phase = .exited res := by
  have hsettled := h.settled
  cases hphase : x.phase with
  | detached | attached =>
    rw [hphase] at hsettled
    rw [hsettled.1] at hm
    cases hm
  | waiting t | replying r t =>
    rw [hphase] at hsettled
    obtain ⟨rs, hrs, -⟩ := hsettled
    exact absurd hd (not_shutdown_of_answers hrs hm)
  | exited res => exact ⟨res, rfl⟩

/-- Behind the exit of the worker nothing is taken and nothing is replied; the driver still can
send, and take what has been replied. -/
theorem Inv.step_of_exited {res : Except Error Report} (h : Inv o d w x)
    (hx : x.phase = .exited res) (hs : Step o d w x y) :
    y.phase = .exited res ∧ y.consumed = x.consumed ∧ y.replies d = x.replies d := by
  cases hs with
  | send _ hsend =>
    obtain ⟨-, rfl⟩ := Store.sendBytes_ok hsend
    exact ⟨hx, rfl, replies_send h.stands⟩
  | sendFails hsend =>
    obtain rfl := Store.sendBytes_error hsend
    exact ⟨hx, rfl, rfl⟩
  | receive hreceive =>
    refine ⟨hx, rfl, ?_⟩
    rcases Store.receive_cases hreceive with ⟨hnil, -, rfl⟩ | ⟨m, rest, hcons, -, rfl⟩
    · simp only [replies, hnil, List.take_nil, List.append_nil]
    · rw [hcons, List.take_succ_cons, List.take_zero]
      exact replies_receive h.stands hcons
  | attach hphase => rw [hx] at hphase; cases hphase
  | announce hphase => rw [hx] at hphase; cases hphase
  | announceFails hphase => rw [hx] at hphase; cases hphase
  | take hphase => rw [hx] at hphase; cases hphase
  | reply hphase => rw [hx] at hphase; cases hphase
  | replyFails hphase => rw [hx] at hphase; cases hphase

theorem Inv.steps_of_exited {res : Except Error Report} (h : Inv o d w x)
    (hx : x.phase = .exited res) (hs : Steps o d w x y) :
    y.phase = .exited res ∧ y.consumed = x.consumed ∧ y.replies d = x.replies d := by
  induction hs with
  | refl => exact ⟨hx, rfl, rfl⟩
  | tail hsteps hstep ih =>
    obtain ⟨hphase, hconsumed, hreplies⟩ := ih
    obtain ⟨hphase', hconsumed', hreplies'⟩ := (h.steps hsteps).step_of_exited hphase hstep
    exact ⟨hphase', hconsumed'.trans hconsumed, hreplies'.trans hreplies⟩

/-- **No request is lost, doubled or reordered, and none is answered twice.** Whatever steps the
two sides have taken: what the driver has sent is what the worker has taken and what waits for it;
from its announcement on, what the worker has replied, with the reply that is unsent, is the
announcement and one reply to each message taken, in order; and once the worker has taken the end of
the run, it takes and replies nothing more, whatever steps follow. -/
theorem Reachable.accounts (h : Reachable o d w x) :
    x.sent = x.consumed ++ x.store.pending d.toWorker.queue ∧
    (x.phase.serves = true → ∃ rs, List.Forall₂ Answers x.consumed rs ∧
      x.received ++ x.store.pending d.toDriver.queue ++ x.phase.unsent.map Reply.bytes =
        (Reply.ready o.workerId :: rs).map Reply.bytes) ∧
    ∀ m ∈ x.consumed, Store.decode Task.decoder m = .ok .shutdown →
      ∀ y, Steps o d w x y → y.consumed = x.consumed ∧ y.replies d = x.replies d := by
  have hinv := h.inv
  refine ⟨hinv.sent, ?_, ?_⟩
  · intro hserves
    have hsettled := hinv.settled
    cases hphase : x.phase with
    | waiting t | replying r t =>
      rw [hphase] at hsettled
      exact hsettled
    | detached | attached | exited =>
      rw [hphase] at hserves
      cases hserves
  · intro m hm hd y hsteps
    obtain ⟨res, hx⟩ := hinv.exited_of_shutdown hm hd
    exact (hinv.steps_of_exited hx hsteps).2

/-- An end of the pair with default options in a store of its own. -/
def defaultPair (l : Lifecycle) : Pair :=
  ⟨⟨0, "/compdb-ipc-w0-to-worker", l, 8192⟩, ⟨1, "/compdb-ipc-w0-to-driver", l, 8192⟩⟩

/-- A conversation over this pair whose driver has sent an `x`, which is no JSON, and the end of the
run, and has not received. -/
def garbageAndStop (consumed toWorker toDriver : List Bytes) (phase : Phase) : Conversation where
  store :=
    { queues := [⟨10, 8192, toWorker⟩, ⟨10, 8192, toDriver⟩]
      names := [("/compdb-ipc-w0-to-driver", 1), ("/compdb-ipc-w0-to-worker", 0)] }
  phase
  sent := [[0x78], Store.encode Task.shutdown.toJson]
  consumed

/-- The reply that an `x` is due. -/
def rejectionOfX : Reply := .rejected (Error.notJson ⟨.expectedValue, some ⟨1, 1⟩, []⟩).message

/-- The worker takes the `x` and owes a rejection. -/
theorem steps_of_garbage :
    ∃ s es, Pair.create {} {} = (.ok (defaultPair .createOnly), s, es) ∧
      Steps {} (defaultPair .createOnly) (defaultPair .openOnly) { store := s }
        (garbageAndStop [[0x78]] [Store.encode Task.shutdown.toJson] [(Reply.ready 0).bytes]
          (.replying rejectionOfX {})) := by
  have hcreate : (Pair.create {} {}).1 = .ok (defaultPair .createOnly) := by decide +kernel
  have hstore : (Pair.create {} {}).2.1 = (garbageAndStop [] [] [] .detached).store := by
    decide +kernel
  refine ⟨_, _, Prod.ext hcreate (Prod.ext hstore rfl), ?_⟩
  have hsent : Steps {} (defaultPair .createOnly) (defaultPair .openOnly)
      { store := (garbageAndStop [] [] [] .detached).store }
      (garbageAndStop [] [[0x78], Store.encode Task.shutdown.toJson] [] .detached) :=
    .tail (.tail .refl
      (.send (by decide +kernel) (Store.sendBytes_of_le (m := [0x78]) (by decide +kernel))))
      (.send (by decide +kernel)
        (Store.sendBytes_of_le (m := Store.encode Task.shutdown.toJson) (by decide +kernel)))
  have hannounced : Steps {} (defaultPair .createOnly) (defaultPair .openOnly)
      { store := (garbageAndStop [] [] [] .detached).store }
      (garbageAndStop [] [[0x78], Store.encode Task.shutdown.toJson] [(Reply.ready 0).bytes]
        (.waiting {})) :=
    .tail (.tail hsent (.attach rfl (Prod.ext (by decide +kernel) rfl)))
      (.announce rfl (by decide +kernel) (Store.sendBytes_of_le (by decide +kernel)))
  have hdecode : Store.decode Task.decoder [0x78] =
      .error (.notJson ⟨.expectedValue, some ⟨1, 1⟩, []⟩) := by decide +kernel
  exact .tail hannounced (.take_message rfl rfl hdecode)

/-- The worker sends the rejection and takes the end of the run. -/
theorem steps_of_stop :
    Steps {} (defaultPair .createOnly) (defaultPair .openOnly)
      (garbageAndStop [[0x78]] [Store.encode Task.shutdown.toJson] [(Reply.ready 0).bytes]
        (.replying rejectionOfX {}))
      (garbageAndStop [[0x78], Store.encode Task.shutdown.toJson] []
        [(Reply.ready 0).bytes, rejectionOfX.bytes] (.exited (.ok ⟨.shutdown, 0, 0⟩))) := by
  have hdecode : Store.decode Task.decoder (Store.encode Task.shutdown.toJson) = .ok .shutdown := by
    decide +kernel
  have hreplied : Steps {} (defaultPair .createOnly) (defaultPair .openOnly)
      (garbageAndStop [[0x78]] [Store.encode Task.shutdown.toJson] [(Reply.ready 0).bytes]
        (.replying rejectionOfX {}))
      (garbageAndStop [[0x78]] [Store.encode Task.shutdown.toJson]
        [(Reply.ready 0).bytes, rejectionOfX.bytes] (.waiting {})) :=
    .tail .refl (.reply_of_le rfl (by decide +kernel) (by decide +kernel))
  exact .tail hreplied (.take_message (t := {}) rfl rfl hdecode)

/-- Between the two sends of the worker one message waits and one reply is owed; behind the end of
the run nothing more happens. -/
theorem accounts_of_garbage_and_shutdown :
    ∃ x z, Steps {} (defaultPair .createOnly) (defaultPair .openOnly) x z ∧
      x.phase.serves = true ∧ x.consumed = [[0x78]] ∧
      (x.sent = x.consumed ++ x.store.pending 0 ∧
        ∃ rs, List.Forall₂ Answers x.consumed rs ∧
          x.received ++ x.store.pending 1 ++ x.phase.unsent.map Reply.bytes =
            (Reply.ready 0 :: rs).map Reply.bytes) ∧
      z.consumed = [[0x78], Store.encode Task.shutdown.toJson] ∧
      ∀ y, Steps {} (defaultPair .createOnly) (defaultPair .openOnly) z y →
        y.consumed = z.consumed ∧ y.replies (defaultPair .createOnly) =
          z.replies (defaultPair .createOnly) := by
  obtain ⟨s, es, hcreate, hx⟩ := steps_of_garbage
  obtain ⟨hsent, hreplies, -⟩ := Reachable.accounts ⟨{}, .roomy, s, es, hcreate, hx⟩
  obtain ⟨-, -, hstop⟩ := Reachable.accounts ⟨{}, .roomy, s, es, hcreate, hx.trans steps_of_stop⟩
  exact ⟨_, _, steps_of_stop, rfl, rfl, ⟨hsent, hreplies rfl⟩, rfl,
    hstop _ (List.mem_cons_of_mem _ List.mem_cons_self) (by decide +kernel)⟩

end Conversation

end IndexFeed.Queue
