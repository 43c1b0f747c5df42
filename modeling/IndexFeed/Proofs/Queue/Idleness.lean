import Mathlib.Data.List.DropRight
import IndexFeed.Proofs.Queue.Rejection

/-!
# When a worker gives up

A worker that receives nothing for too long stops.  `Worker.after` is its loop over receives of any
kind in any order, as they come where the driver goes on meanwhile: a message can stand behind
receives that brought nothing.  The worker counts the latter, and begins anew at a task.  It does
not begin anew at a message that is no task, so the receives that it counts need not be in a row.
-/

set_option autoImplicit false

namespace IndexFeed.Queue

namespace Worker

variable {o : Options} {h : Handle} {t : State} {m : Bytes} {r : Received} {rs : List Received}

/-! ## The loop over receives -/

/-- The phase once the reply that is owed has been sent, if it can be. -/
def Phase.settle (h : Handle) : Phase → Phase
  | .replying reply t =>
    match encodeReply h reply with
    | .ok _ => .waiting t
    | .error e => .exited (.error e)
  | phase => phase

/-- The phase behind one receive more, and the reply to it on the queue to the driver. -/
def attend (o : Options) (h : Handle) : Phase → Received → Phase
  | .waiting t, r => (Phase.behind (react o t r)).settle h
  | phase, _ => phase

/-- The phase behind any number of receives. -/
def after (o : Options) (h : Handle) (phase : Phase) (rs : List Received) : Phase :=
  rs.foldl (attend o h) phase

/-- The number of receives without a message after which a worker gives up. -/
def patience (o : Options) : Nat := max o.maxIdleTimeouts.toNat 1

theorem patience_pos (o : Options) : 0 < patience o := Nat.le_max_right _ _

theorem after_concat (o : Options) (h : Handle) (phase : Phase) (rs : List Received)
    (r : Received) : after o h phase (rs ++ [r]) = attend o h (after o h phase rs) r := by
  rw [after, List.foldl_append]
  rfl

/-- A receive that brings nothing ends the run where the patience is at its end, and is counted
otherwise. -/
theorem attend_nothing (o : Options) (h : Handle) (t : State) :
    attend o h (.waiting t) .nothing =
      if patience o ≤ t.idle + 1 then .exited (.ok ⟨.idle, t.indexed, t.failed⟩)
      else .waiting { t with idle := t.idle + 1 } := by
  by_cases hout : patience o ≤ t.idle + 1
  · rw [if_pos hout]
    simp only [attend, react]
    rw [if_pos (show max o.maxIdleTimeouts.toNat 1 ≤ t.idle + 1 from hout)]
    rfl
  · rw [if_neg hout]
    simp only [attend, react]
    rw [if_neg (show ¬max o.maxIdleTimeouts.toNat 1 ≤ t.idle + 1 from hout)]
    rfl

/-- A reply is sent, and leaves the worker waiting, or is too large. -/
theorem settle_replying (h : Handle) (reply : Reply) (t : State) :
    Phase.settle h (.replying reply t) = .waiting t ∨
      ∃ e, Phase.settle h (.replying reply t) = .exited (.error e) := by
  simp only [Phase.settle]
  split
  · exact .inl rfl
  · exact .inr ⟨_, rfl⟩

/-- A message that is no task leaves the worker as it was, unless it cannot be answered. -/
theorem attend_invalid (o : Options) (h : Handle) (t : State) (e : Error) :
    attend o h (.waiting t) (.invalid e) = .waiting t ∨
      ∃ e', attend o h (.waiting t) (.invalid e) = .exited (.error e') :=
  settle_replying h (.rejected e.message) t

/-- A reply that can be sent leaves the worker waiting. -/
theorem attend_of_fits {reply : Reply} {t' : State}
    (hbehind : Phase.behind (react o t r) = .replying reply t')
    (hreply : reply.bytes.length ≤ h.maxMessageSize) :
    attend o h (.waiting t) r = .waiting t' := by
  rw [attend, hbehind, Phase.settle, encodeReply_of_le hreply]

/-- A message that is no task and can be answered leaves the worker as it was. -/
theorem attend_of_answerable (hm : isTask m = false) (ha : Answerable h.maxMessageSize m) :
    attend o h (.waiting t) (.ofMessage m) = .waiting t := by
  cases hd : Store.decode Task.decoder m with
  | ok task => exact absurd ((isTask_of_ok hd).symm.trans hm) Bool.noConfusion
  | error e =>
    rw [Received.ofMessage, hd]
    exact attend_of_fits rfl (ha e hd)

/-- Behind a task the count begins anew, unless the task ends the run; it is not ended as idle. -/
theorem attend_task (o : Options) (h : Handle) (t : State) (task : Task) :
    (∃ t', attend o h (.waiting t) (.task task) = .waiting t' ∧ t'.idle = 0) ∨
      (∃ indexed failed, attend o h (.waiting t) (.task task) =
        .exited (.ok ⟨.shutdown, indexed, failed⟩)) ∨
      ∃ e, attend o h (.waiting t) (.task task) = .exited (.error e) := by
  cases task with
  | shutdown => exact .inr (.inl ⟨t.indexed, t.failed, rfl⟩)
  | index jobId command =>
    have hidle : ∃ t', Phase.behind (react o t (.task (.index jobId command))) =
        .replying (handleIndex jobId command) t' ∧ t'.idle = 0 := by
      refine ⟨_, rfl, ?_⟩
      split <;> rfl
    obtain ⟨t', hbehind, ht'⟩ := hidle
    rw [attend, hbehind]
    rcases settle_replying h (handleIndex jobId command) t' with hsettle | hsettle
    · exact .inl ⟨t', hsettle, ht'⟩
    · exact .inr (.inr hsettle)

/-- Waiting in vain is a loop over receives that bring nothing. -/
theorem after_waitOut {n : Nat} (o : Options) (p : Pair) (t : State) (hn : 0 < n)
    (hlong : patience o ≤ t.idle + n) :
    after o p.toDriver (.waiting t) (List.replicate n .nothing) =
      .exited (waitOut o p t).result := by
  fun_induction waitOut o p t generalizing n with
  | case1 =>
    rename_i hreact
    obtain ⟨n, rfl⟩ := Nat.exists_eq_succ_of_ne_zero hn.ne'
    rw [List.replicate_succ, after, List.foldl_cons, attend, hreact]
    exact List.foldl_fixed' (fun _ => rfl) _
  | case2 =>
    rename_i t timedOut reply t' es hreact ih
    obtain ⟨hidle, hlt⟩ := idle_of_react_nothing hreact
    have hpatient : t.idle + 1 < patience o := hlt
    obtain ⟨n, rfl⟩ := Nat.exists_eq_succ_of_ne_zero hn.ne'
    have hattend : attend o p.toDriver (.waiting t) .nothing = .waiting t' := by
      rw [attend, hreact]
      cases reply with
      | none => rfl
      | some reply =>
        simp only [react] at hreact
        split at hreact <;> cases hreact
    rw [List.replicate_succ, after, List.foldl_cons, hattend]
    exact ih (by omega) (by omega)

/-- **The loop over messages is one over receives**: those messages, and then as many receives that
bring nothing as the patience allows. -/
theorem after_serve (o : Options) (p : Pair) (t : State) (ms : List Bytes) :
    after o p.toDriver (.waiting t)
      (ms.map .ofMessage ++ List.replicate (patience o) .nothing) =
        .exited (serve o p t ms).result := by
  induction ms generalizing t with
  | nil => exact after_waitOut o p t (patience_pos o) (Nat.le_add_left _ _)
  | cons m ms ih =>
    rw [List.map_cons, List.cons_append, after, List.foldl_cons, attend, serve]
    cases hreact : react o t (.ofMessage m) with
    | stop report es => exact List.foldl_fixed' (fun _ => rfl) _
    | proceed reply t' es =>
      cases reply with
      | none => exact ih t'
      | some reply =>
        dsimp only [Phase.behind, Phase.settle]
        cases encodeReply p.toDriver reply with
        | error e => exact List.foldl_fixed' (fun _ => rfl) _
        | ok bytes => exact ih t'

end Worker

/-! ## Receives of a conversation -/

namespace Conversation

open Worker (State Received Phase react after attend encodeReply)

variable {o : Options} {d w : Pair} {x : Conversation} {t : State}

/-- The queues of a pair are open and empty, and take a message. -/
structure Clear (s : Store) (p : Pair) : Prop where
  stands : Pair.Stands s p
  toWorker : s.pending p.toWorker.queue = []
  toDriver : s.pending p.toDriver.queue = []
  roomToWorker : s.isFull p.toWorker.queue = false
  roomToDriver : s.isFull p.toDriver.queue = false

/-- A message that has come and gone leaves no trace. -/
theorem setPending_push {s : Store} {q : QueueId} (hq : s.pending q = []) (m : Bytes) :
    (s.push q m).setPending q [] = s := by
  rw [Store.push, Store.setPending_setPending, ← hq, Store.setPending_pending]

/-- What a receive brings where the driver has sent a message or nothing since the last one. -/
def arrival : Option Bytes → Received
  | some m => .ofMessage m
  | none => .nothing

/-- The driver sends a message or nothing, and the worker receives. -/
theorem steps_take (hshares : Pair.Shares d w) (hclear : Clear x.store w)
    (hx : x.phase = .waiting t) (a : Option Bytes)
    (ha : ∀ m ∈ a, m.length ≤ d.toWorker.maxMessageSize) :
    ∃ y, Steps o d w x y ∧ y.store = x.store ∧ y.phase = .behind (react o t (arrival a)) := by
  cases a with
  | none => exact ⟨_, .tail .refl (Step.take_nothing hx hclear.toWorker), rfl, rfl⟩
  | some m =>
    have hsend : Step o d w x { x with
        store := x.store.push w.toWorker.queue m, sent := x.sent ++ [m] } := by
      rw [hshares.toWorker]
      exact .send (by rw [← hshares.toWorker]; exact hclear.roomToWorker)
        (Store.sendBytes_of_le (ha m rfl))
    have hpending : (x.store.push w.toWorker.queue m).pending w.toWorker.queue = [m] := by
      rw [Store.pending_push hclear.stands.hasToWorker, hclear.toWorker, List.nil_append]
    have htake := Step.take_message (o := o) (d := d) (w := w) (x := { x with
      store := x.store.push w.toWorker.queue m, sent := x.sent ++ [m] }) hx hpending rfl
    rw [setPending_push hclear.toWorker, Received.ofResult_decode] at htake
    exact ⟨_, .tail (.tail .refl hsend) htake, rfl, rfl⟩

/-- The worker sends the reply that it owes, if there is one and it can, and the driver takes it. -/
theorem steps_settle (hshares : Pair.Shares d w) (hclear : Clear x.store w) :
    ∃ y, Steps o d w x y ∧ y.store = x.store ∧ y.phase = x.phase.settle w.toDriver := by
  cases hx : x.phase with
  | replying r t =>
    rw [Phase.settle]
    cases hencode : encodeReply w.toDriver r with
    | error e => exact ⟨_, .tail .refl (.fails_of_encodeReply hx hencode), rfl, rfl⟩
    | ok bytes =>
      have hreply := Step.reply_of_encodeReply (o := o) (d := d) hx hclear.roomToDriver hencode
      rw [hshares.toDriver] at hreply
      have hwaits : (x.store.push d.toDriver.queue bytes).pending d.toDriver.queue = [bytes] := by
        rw [← hshares.toDriver, Store.pending_push hclear.stands.hasToDriver, hclear.toDriver,
          List.nil_append]
      have hreceive : (x.store.push d.toDriver.queue bytes).receive d.toDriver Reply.decoder
          o.receiveTimeout = (Store.decode Reply.decoder bytes,
            (x.store.push d.toDriver.queue bytes).setPending d.toDriver.queue [],
            [.received d.toDriver.name bytes.length]) := Store.receive_of_cons hwaits
      have hempty : x.store.pending d.toDriver.queue = [] := by
        rw [← hshares.toDriver]
        exact hclear.toDriver
      exact ⟨_, .tail (.tail .refl hreply) (.receive hreceive), setPending_push hempty bytes, rfl⟩
  | _ => exact ⟨x, .refl, rfl, hx⟩

/-- One receive, with the reply to it. -/
theorem steps_of_arrival (hshares : Pair.Shares d w) (hclear : Clear x.store w)
    (hx : x.phase = .waiting t) (a : Option Bytes)
    (ha : ∀ m ∈ a, m.length ≤ d.toWorker.maxMessageSize) :
    ∃ y, Steps o d w x y ∧ y.store = x.store ∧
      y.phase = attend o w.toDriver (.waiting t) (arrival a) := by
  obtain ⟨y, hy, hstore, hphase⟩ := steps_take (o := o) hshares hclear hx a ha
  have hclear' : Clear y.store w := by
    rw [hstore]
    exact hclear
  obtain ⟨z, hz, hstore', hphase'⟩ := steps_settle (o := o) hshares hclear'
  refine ⟨z, hy.trans hz, hstore'.trans hstore, ?_⟩
  rw [hphase', hphase, attend]

/-- **Every sequence of receives can come about**: a driver that sends at the right moments makes a
worker meet any messages and vain receives in any order. -/
theorem steps_of_arrivals (hshares : Pair.Shares d w) (hclear : Clear x.store w)
    (hx : x.phase = .waiting t) (arrivals : List (Option Bytes))
    (hfits : ∀ a ∈ arrivals, ∀ m ∈ a, m.length ≤ d.toWorker.maxMessageSize) :
    ∃ y, Steps o d w x y ∧
      y.phase = after o w.toDriver (.waiting t) (arrivals.map arrival) := by
  induction arrivals generalizing x t with
  | nil => exact ⟨x, .refl, hx⟩
  | cons a arrivals ih =>
    rw [List.forall_mem_cons] at hfits
    obtain ⟨y, hy, hstore, hphase⟩ := steps_of_arrival (o := o) hshares hclear hx a hfits.1
    rw [List.map_cons, after, List.foldl_cons, ← hphase]
    cases hy' : y.phase with
    | waiting t' =>
      have hclear' : Clear y.store w := by
        rw [hstore]
        exact hclear
      obtain ⟨z, hz, hphase'⟩ := ih hclear' hy' hfits.2
      exact ⟨z, hy.trans hz, hphase'⟩
    | _ =>
      refine ⟨y, hy, ?_⟩
      rw [hy']
      exact (List.foldl_fixed' (fun _ => rfl) _).symm

end Conversation

namespace Worker

variable {o : Options} {h : Handle} {t : State} {r : Received} {rs : List Received}

/-! ## The receives that are counted -/

/-- The receive brings a task. -/
def Received.isTask : Received → Bool
  | .task _ => true
  | _ => false

/-- The receives behind the last task. -/
def sinceTask (rs : List Received) : List Received := rs.rtakeWhile fun r => !r.isTask

/-- How many of them brought nothing. -/
def quiet (rs : List Received) : Nat := (sinceTask rs).count .nothing

theorem sinceTask_nothing (rs : List Received) :
    sinceTask (rs ++ [.nothing]) = sinceTask rs ++ [.nothing] :=
  List.rtakeWhile_concat_pos _ _ _ rfl

theorem quiet_nothing (rs : List Received) : quiet (rs ++ [.nothing]) = quiet rs + 1 := by
  rw [quiet, sinceTask_nothing, List.count_append, List.count_singleton_self]
  rfl

theorem quiet_invalid (rs : List Received) (e : Error) :
    quiet (rs ++ [.invalid e]) = quiet rs := by
  have hsince : sinceTask (rs ++ [.invalid e]) = sinceTask rs ++ [.invalid e] :=
    List.rtakeWhile_concat_pos _ _ _ rfl
  rw [quiet, hsince, List.count_append, List.count_singleton, if_neg (by simp)]
  rfl

theorem quiet_task (rs : List Received) (task : Task) : quiet (rs ++ [.task task]) = 0 := by
  have hsince : sinceTask (rs ++ [.task task]) = [] :=
    List.rtakeWhile_concat_neg _ _ _ (by simp [Received.isTask])
  rw [quiet, hsince, List.count_nil]

/-- **What the worker counts.** As long as it goes on, its count is that of the receives since the
last task that brought nothing, and they are fewer than its patience allows. -/
theorem idle_eq_quiet (hrs : after o h (.waiting {}) rs = .waiting t) :
    t.idle = quiet rs ∧ quiet rs < patience o := by
  induction rs using List.reverseRecOn generalizing t with
  | nil =>
    cases hrs
    exact ⟨rfl, patience_pos o⟩
  | append_singleton rs r ih =>
    rw [after_concat] at hrs
    cases hphase : after o h (.waiting {}) rs with
    | waiting t₀ =>
      obtain ⟨hidle, hlt⟩ := ih hphase
      rw [hphase] at hrs
      cases r with
      | nothing =>
        rw [attend_nothing] at hrs
        split at hrs
        · cases hrs
        · next hpatient =>
          cases hrs
          rw [quiet_nothing, ← hidle]
          exact ⟨rfl, Nat.lt_of_not_le hpatient⟩
      | invalid e =>
        rw [quiet_invalid]
        rcases attend_invalid o h t₀ e with heq | ⟨e', heq⟩
        · rw [heq] at hrs
          cases hrs
          exact ⟨hidle, hlt⟩
        · rw [heq] at hrs
          cases hrs
      | task task =>
        rw [quiet_task]
        rcases attend_task o h t₀ task with ⟨t', heq, ht'⟩ | ⟨indexed, failed, heq⟩ | ⟨e, heq⟩
        · rw [heq] at hrs
          cases hrs
          exact ⟨ht', patience_pos o⟩
        · rw [heq] at hrs
          cases hrs
        · rw [heq] at hrs
          cases hrs
    | _ =>
      rw [hphase] at hrs
      cases hrs

/-! ## Receives in a row -/

/-- Since the last task, only messages in front of all receives that brought nothing. -/
def Uninterrupted (rs : List Received) : Prop :=
  ∀ r ∈ (sinceTask rs).dropWhile (· != .nothing), r = .nothing

/-- The receives at the end that brought nothing are behind the last task. -/
theorem suffix_sinceTask {n : Nat} :
    List.replicate n .nothing <:+ rs ↔ List.replicate n .nothing <:+ sinceTask rs := by
  refine ⟨?_, fun hsuffix => hsuffix.trans (List.rtakeWhile_suffix _ _)⟩
  rintro ⟨front, rfl⟩
  induction n with
  | zero => exact List.nil_suffix
  | succ n ih =>
    rw [List.replicate_succ', ← List.append_assoc, sinceTask_nothing]
    obtain ⟨before, hbefore⟩ := ih
    exact ⟨before, by rw [← List.append_assoc, hbefore]⟩

/-- Where so many receives have brought nothing, they are the last ones if and only if none of the
messages stands behind one of them. -/
theorem suffix_iff_uninterrupted {n : Nat} (hn : quiet rs = n) :
    List.replicate n .nothing <:+ rs ↔ Uninterrupted rs := by
  rw [suffix_sinceTask, Uninterrupted]
  rw [quiet] at hn
  generalize sinceTask rs = l at hn ⊢
  constructor
  · rintro ⟨front, rfl⟩
    -- the last ones are all there are, so there is none in front of them
    rw [List.count_append, List.count_replicate_self] at hn
    have hfront : Received.nothing ∉ front := List.count_eq_zero.1 (by omega)
    have hdrop : (front ++ List.replicate n Received.nothing).dropWhile (· != .nothing) =
        (List.replicate n Received.nothing).dropWhile (· != .nothing) :=
      List.dropWhile_append_of_pos fun r hr => bne_iff_ne.2 fun heq => hfront (heq ▸ hr)
    intro r hr
    rw [hdrop] at hr
    exact List.eq_of_mem_replicate ((List.dropWhile_suffix _).subset hr)
  · intro hall
    have hnone : (l.takeWhile (· != .nothing)).count .nothing = 0 := by
      refine List.count_eq_zero.2 fun hmem => ?_
      have hne := List.mem_takeWhile_imp hmem
      exact absurd rfl (bne_iff_ne.1 hne)
    have hcount : (l.dropWhile (· != .nothing)).count .nothing = n := by
      rw [← hn, ← List.takeWhile_append_dropWhile (p := (· != .nothing)) (l := l),
        List.count_append, hnone, Nat.zero_add]
      simp
    have hlength := List.count_eq_length.2 fun r hr => (hall r hr).symm
    have hrow : l.dropWhile (· != .nothing) = List.replicate n .nothing :=
      List.eq_replicate_iff.2 ⟨hlength.symm.trans hcount, hall⟩
    rw [← hrow]
    exact List.dropWhile_suffix _

/-! ## Giving up -/

/-- The worker stops as idle at a receive. -/
def GivesUp (o : Options) (h : Handle) (t : State) (r : Received) : Prop :=
  ∃ indexed failed, attend o h (.waiting t) r = .exited (.ok ⟨.idle, indexed, failed⟩)

theorem givesUp_nothing : GivesUp o h t .nothing ↔ patience o ≤ t.idle + 1 := by
  rw [GivesUp, attend_nothing]
  split
  · next hout => exact ⟨fun _ => hout, fun _ => ⟨_, _, rfl⟩⟩
  · next hpatient =>
    refine ⟨?_, fun hout => absurd hout hpatient⟩
    rintro ⟨indexed, failed, heq⟩
    cases heq

/-- Only a receive that brings nothing makes a worker give up. -/
theorem nothing_of_givesUp (hr : GivesUp o h t r) : r = .nothing := by
  obtain ⟨indexed, failed, heq⟩ := hr
  cases r with
  | nothing => rfl
  | invalid e =>
    rcases attend_invalid o h t e with heq' | ⟨e', heq'⟩
    · cases heq'.symm.trans heq
    · cases heq'.symm.trans heq
  | task task =>
    rcases attend_task o h t task with ⟨t', heq', -⟩ | ⟨indexed', failed', heq'⟩ | ⟨e, heq'⟩
    · cases heq'.symm.trans heq
    · cases heq'.symm.trans heq
    · cases heq'.symm.trans heq

/-- **When a worker gives up.** A worker that has come through some receives, of any kind in any
order, and goes on to the next one

* gives up there if and only if that one brings nothing and is the one with which as many as its
  patience allows have brought nothing since the last task;
* gives up if the last so many receives have brought nothing;
* and, if it gives up, the last so many receives have brought nothing if and only if since the last
  task no message has stood behind a receive that brought nothing. -/
theorem givesUp_iff (hrs : after o h (.waiting {}) rs = .waiting t) :
    (GivesUp o h t r ↔ r = .nothing ∧ quiet (rs ++ [r]) = patience o) ∧
    (List.replicate (patience o) .nothing <:+ rs ++ [r] → GivesUp o h t r) ∧
    (GivesUp o h t r →
      (List.replicate (patience o) .nothing <:+ rs ++ [r] ↔ Uninterrupted (rs ++ [r]))) := by
  obtain ⟨hidle, hlt⟩ := idle_eq_quiet hrs
  have hiff : GivesUp o h t r ↔ r = .nothing ∧ quiet (rs ++ [r]) = patience o := by
    constructor
    · intro hr
      obtain rfl := nothing_of_givesUp hr
      have hout := givesUp_nothing.1 hr
      rw [quiet_nothing]
      exact ⟨rfl, by omega⟩
    · rintro ⟨rfl, hquiet⟩
      rw [quiet_nothing] at hquiet
      exact givesUp_nothing.2 (by omega)
  refine ⟨hiff, fun hsuffix => ?_, fun hr => suffix_iff_uninterrupted (hiff.1 hr).2⟩
  have hr : r = .nothing := by
    obtain ⟨front, hfront⟩ := hsuffix
    obtain ⟨n, hn⟩ := Nat.exists_eq_succ_of_ne_zero (patience_pos o).ne'
    rw [hn, List.replicate_succ', ← List.append_assoc] at hfront
    exact (List.append_singleton_inj.1 hfront).2.symm
  subst hr
  have hmany : patience o ≤ quiet (rs ++ [.nothing]) := by
    have hsublist := (suffix_sinceTask.1 hsuffix).sublist
    have hcount := hsublist.count_le .nothing
    rwa [List.count_replicate_self] at hcount
  rw [quiet_nothing, ← hidle] at hmany
  exact givesUp_nothing.2 hmany

/-- The options of a worker that gives up at the second receive without a message. -/
def hasty : Options := { maxIdleTimeouts := 2 }

/-- Behind a task, such a worker gives up at the second one. -/
theorem gives_up_behind_task :
    after hasty (pairWithin 8192 .openOnly).toDriver (.waiting {})
        [.nothing, .task (.index 7 { directory := "/w", file := "a.c" }), .nothing] =
      .waiting ⟨1, 0, 1⟩ ∧
    GivesUp hasty (pairWithin 8192 .openOnly).toDriver ⟨1, 0, 1⟩ .nothing := by
  have hrs : after hasty (pairWithin 8192 .openOnly).toDriver (.waiting {})
      [.nothing, .task (.index 7 { directory := "/w", file := "a.c" }), .nothing] =
        .waiting ⟨1, 0, 1⟩ := by
    have hbehind : Phase.behind (react hasty ⟨1, 0, 0⟩
        (.task (.index 7 { directory := "/w", file := "a.c" }))) =
          .replying (.failed 7 "Empty compiler invocation") ⟨0, 0, 1⟩ := rfl
    have htask : attend hasty (pairWithin 8192 .openOnly).toDriver (.waiting ⟨1, 0, 0⟩)
        (.task (.index 7 { directory := "/w", file := "a.c" })) = .waiting ⟨0, 0, 1⟩ :=
      attend_of_fits hbehind (by decide +kernel)
    rw [after, List.foldl_cons, List.foldl_cons, attend_nothing, if_neg (by decide), htask]
    rfl
  obtain ⟨-, hrow, -⟩ := givesUp_iff (r := .nothing) hrs
  exact ⟨hrs, hrow (by decide +kernel)⟩

/-- **A message between the two makes no difference if it is no task**: the worker gives up at the
third of three receives, though the second has brought an `x`. -/
theorem gives_up_past_garbage :
    after hasty (pairWithin 8192 .openOnly).toDriver (.waiting {})
        [.nothing, .ofMessage [0x78]] = .waiting ⟨1, 0, 0⟩ ∧
      GivesUp hasty (pairWithin 8192 .openOnly).toDriver ⟨1, 0, 0⟩ .nothing ∧
      ¬List.replicate (patience hasty) Received.nothing <:+
        [.nothing, .ofMessage [0x78], .nothing] := by
  have hx : attend hasty (pairWithin 8192 .openOnly).toDriver (.waiting ⟨1, 0, 0⟩)
      (.ofMessage [0x78]) = .waiting ⟨1, 0, 0⟩ :=
    attend_of_answerable (by decide +kernel) (answerable_of_length_le (by decide) (by decide))
  refine ⟨?_, givesUp_nothing.2 (by decide), by decide +kernel⟩
  rw [after, List.foldl_cons, List.foldl_cons, attend_nothing, if_neg (by decide)]
  exact hx

end Worker

end IndexFeed.Queue
