import IndexFeed.Proofs.Queue.Conversation

/-!
# Runs as conversations

`Worker.run` is a worker whose driver does nothing meanwhile.  Where the queue to the driver has
room, it is one way for a conversation to go on: the worker takes its steps alone, and the store and
the result that it leaves are those of the run.
-/

set_option autoImplicit false

namespace IndexFeed.Queue.Conversation

open Worker (State Report Received Phase Run react serve waitOut encodeReply)

variable {o : Options} {d w : Pair} {x y : Conversation} {t : State}

/-- A worker alone gets from one conversation to another and stops there. -/
structure RunsTo (o : Options) (d w : Pair) (x y : Conversation) (res : Except Error Report) :
    Prop where
  steps : Steps o d w x y
  phase : y.phase = .exited res
  sent : y.sent = x.sent
  received : y.received = x.received

theorem RunsTo.after {z : Conversation} {res : Except Error Report} (hs : Step o d w x y)
    (hsent : y.sent = x.sent) (hreceived : y.received = x.received) (h : RunsTo o d w y z res) :
    RunsTo o d w x z res :=
  ⟨(Steps.tail .refl hs).trans h.steps, h.phase, h.sent.trans hsent,
    h.received.trans hreceived⟩

/-- The store that a run of the serving loop leaves. -/
def leave (s : Store) (w : Pair) (r : Run) : Store :=
  (s.setPending w.toWorker.queue r.left).setPending w.toDriver.queue
    (s.pending w.toDriver.queue ++ r.replies)

/-- A loop that takes and replies nothing leaves the store as it is. -/
theorem leave_of_nothing {s : Store} {r : Run} (hleft : r.left = s.pending w.toWorker.queue)
    (hreplies : r.replies = []) : leave s w r = s := by
  rw [leave, hleft, hreplies, List.append_nil, Store.setPending_pending, Store.setPending_pending]

/-- The messages taken first make no difference to what is left. -/
theorem leave_setPending {s : Store} {r : Run} (rest : List Bytes)
    (hne : w.toDriver.queue ≠ w.toWorker.queue) :
    leave (s.setPending w.toWorker.queue rest) w r = leave s w r := by
  rw [leave, leave, Store.setPending_setPending, Store.pending_setPending_of_ne hne]

/-- The replies sent first stand in front. -/
theorem leave_push {s : Store} {r : Run} {m : Bytes} (hne : w.toDriver.queue ≠ w.toWorker.queue)
    (hhas : s.Has w.toDriver.queue) {es : List Event} :
    leave (s.push w.toDriver.queue m) w r = leave s w (r.after [m] es) := by
  rw [leave, leave, Store.pending_push hhas, Store.push, Store.setPending_comm hne,
    Store.setPending_setPending, List.append_assoc]
  rfl

theorem waitOut_spec (o : Options) (p : Pair) (t : State) :
    (waitOut o p t).left = [] ∧ (waitOut o p t).replies = [] := by
  fun_induction waitOut o p t with
  | case1 => exact ⟨rfl, rfl⟩
  | case2 t timedOut reply t' es h ih => exact ⟨ih.1, by rw [Run.after, ih.2]; rfl⟩

/-- Waiting in vain, until the worker stops. -/
theorem runsTo_of_waitOut (hx : x.phase = .waiting t)
    (hq : x.store.pending w.toWorker.queue = []) :
    ∃ y, RunsTo o d w x y (waitOut o w t).result ∧ y.store = x.store := by
  fun_induction waitOut o w t generalizing x with
  | case1 =>
    rename_i h
    have hstep := Step.take_nothing (o := o) (d := d) hx hq
    rw [h] at hstep
    exact ⟨_, ⟨.tail .refl hstep, rfl, rfl, rfl⟩, rfl⟩
  | case2 =>
    rename_i reply t' es h ih
    have hstep := Step.take_nothing (o := o) (d := d) hx hq
    obtain rfl : reply = none := by
      simp only [react] at h
      split at h
      · cases h
      · cases h
        rfl
    rw [h] at hstep
    obtain ⟨y, hy, hstore⟩ := ih (x := { x with phase := .waiting t' }) rfl hq
    exact ⟨y, hy.after hstep rfl rfl, hstore⟩

/-- A reply that fits is sent where there is room. -/
theorem Step.reply_of_encodeReply {r : Reply} {bytes : Bytes} (hx : x.phase = .replying r t)
    (hroom : x.store.isFull w.toDriver.queue = false)
    (h : encodeReply w.toDriver r = .ok bytes) :
    Step o d w x { x with store := x.store.push w.toDriver.queue bytes, phase := .waiting t } := by
  unfold encodeReply at h
  dsimp only at h
  split at h
  · cases h
  · next hfits =>
    cases h
    exact .reply_of_le hx hroom (Nat.le_of_not_lt hfits)

/-- A reply that is too large ends the run. -/
theorem Step.fails_of_encodeReply {r : Reply} {e : Error} (hx : x.phase = .replying r t)
    (h : encodeReply w.toDriver r = .error e) :
    Step o d w x { x with phase := .exited (.error e) } := by
  unfold encodeReply at h
  dsimp only at h
  split at h
  · next hlarge =>
    cases h
    exact .replyFails hx (by rw [Store.send, Store.sendWritten, Store.sendBytes, if_pos hlarge])
  · cases h

/-- Serving the messages that wait. -/
theorem runsTo_of_serve {ms : List Bytes} (hne : w.toDriver.queue ≠ w.toWorker.queue)
    (hhas : x.store.Has w.toDriver.queue) (hworker : x.store.Has w.toWorker.queue)
    (hx : x.phase = .waiting t) (hq : x.store.pending w.toWorker.queue = ms)
    (hroom : x.store.HasRoom w.toDriver.queue ms.length) :
    ∃ y, RunsTo o d w x y (serve o w t ms).result ∧
      y.store = leave x.store w (serve o w t ms) := by
  induction ms generalizing x t with
  | nil =>
    obtain ⟨y, hy, hstore⟩ := runsTo_of_waitOut (o := o) (d := d) hx hq
    obtain ⟨hleft, hreplies⟩ := waitOut_spec o w t
    exact ⟨y, hy, by rw [hstore, serve, leave_of_nothing (hleft.trans hq.symm) hreplies]⟩
  | cons m rest ih =>
    have hstep := Step.take_message (o := o) (d := d) hx hq rfl
    rw [Received.ofResult_decode] at hstep
    have hroom' : (x.store.setPending w.toWorker.queue rest).HasRoom w.toDriver.queue
        (rest.length + 1) := hroom.setPending_of_ne hne
    have hpending : (x.store.setPending w.toWorker.queue rest).pending w.toWorker.queue = rest :=
      Store.pending_setPending hworker
    have hhas' : (x.store.setPending w.toWorker.queue rest).Has w.toDriver.queue :=
      Store.has_setPending.2 hhas
    have hworker' : (x.store.setPending w.toWorker.queue rest).Has w.toWorker.queue :=
      Store.has_setPending.2 hworker
    rw [serve]
    cases hreact : react o t (.ofMessage m) with
    | stop report es =>
      rw [hreact] at hstep
      refine ⟨_, ⟨.tail .refl hstep, rfl, rfl, rfl⟩, ?_⟩
      rw [← leave_setPending rest hne, leave_of_nothing hpending.symm rfl]
    | proceed reply t' es =>
      rw [hreact] at hstep
      cases reply with
      | none =>
        -- a message is answered or ends the run
        rcases Worker.behind_react_message o t m with ⟨r, t'', hbehind, -⟩ | ⟨-, hbehind⟩
        · rw [hreact] at hbehind
          cases hbehind
        · rw [hreact] at hbehind
          cases hbehind
      | some reply =>
        dsimp only
        cases hencode : encodeReply w.toDriver reply with
        | error e =>
          refine ⟨_, ⟨.tail (.tail .refl hstep) (.fails_of_encodeReply rfl hencode), rfl, rfl, rfl⟩,
            ?_⟩
          rw [← leave_setPending rest hne, leave_of_nothing hpending.symm rfl]
        | ok bytes =>
          obtain ⟨y, hy, hstore⟩ := ih (x := { x with
              store := (x.store.setPending w.toWorker.queue rest).push w.toDriver.queue bytes,
              phase := .waiting t', consumed := x.consumed ++ [m] })
            (Store.has_push.2 hhas') (Store.has_push.2 hworker') rfl
            ((Store.pending_push_of_ne hne.symm).trans hpending) (hroom'.push _)
          have hreply := Step.reply_of_encodeReply (o := o) (d := d) (x := { x with
              store := x.store.setPending w.toWorker.queue rest,
              phase := .replying reply t', consumed := x.consumed ++ [m] })
            rfl hroom'.isFull hencode
          refine ⟨y, (hy.after hreply rfl rfl).after hstep rfl rfl, ?_⟩
          rw [hstore, leave_push hne hhas', leave_setPending rest hne]

/-- **A run is a conversation of the worker alone.** Where the queue to the driver has room for the
announcement and a reply to every message that waits, the steps of the worker lead to the store
and the result of `Worker.run`. -/
theorem runsTo_of_run (hstands : Pair.Stands x.store w) (hx : x.phase = .attached)
    (hroom : x.store.HasRoom w.toDriver.queue
      ((x.store.pending w.toWorker.queue).length + 1)) :
    ∃ y, RunsTo o d w x y (Worker.run o w x.store).1 ∧ y.store = (Worker.run o w x.store).2.1 := by
  have hne := hstands.ne.symm
  unfold Worker.run
  cases hsend : x.store.send w.toDriver (Reply.ready o.workerId).toJson with
  | mk res sent =>
    obtain ⟨s, es⟩ := sent
    cases res with
    | error e =>
      have hstep := Step.announceFails (d := d) hx hsend
      exact ⟨_, ⟨.tail .refl hstep, rfl, rfl, rfl⟩, rfl⟩
    | ok u =>
      cases u
      have hstep := Step.announce (d := d) hx hroom.isFull hsend
      obtain ⟨-, rfl⟩ := Store.sendBytes_ok hsend
      have hpending := Store.pending_push_of_ne (s := x.store)
        (m := Store.encode (Reply.ready o.workerId).toJson) hstands.ne
      obtain ⟨y, hy, hstore⟩ := runsTo_of_serve (o := o) (d := d) (x := { x with
          store := x.store.push w.toDriver.queue (Store.encode (Reply.ready o.workerId).toJson),
          phase := .waiting {} }) hne
        (Store.has_push.2 hstands.hasToDriver) (Store.has_push.2 hstands.hasToWorker) rfl hpending
        (hroom.push _)
      rw [← hpending] at hy hstore
      refine ⟨y, hy.after hstep rfl rfl, ?_⟩
      rw [hstore, leave]
      dsimp only
      rw [hpending, Store.pending_setPending_of_ne hne]

end IndexFeed.Queue.Conversation
