import IndexFeed.Proofs.Queue.Rejection

/-!
# What a run of a worker comes to

A worker serves the messages that wait for it up to the first one that tells it to stop, and answers
each of them once.  `Worker.served` are these messages and `Worker.dues` the replies to them; both
are read off the messages alone.  The main statement says what a run comes to in terms of the two:
its report, the replies sent and the messages left, where every reply fits and where one does not.
-/

set_option autoImplicit false

namespace IndexFeed.Queue

namespace Reply

/-- A file has been indexed. -/
def isIndexed : Reply → Bool
  | .indexed .. => true
  | _ => false

/-- A file could not be indexed. -/
def isFailed : Reply → Bool
  | .failed .. => true
  | _ => false

end Reply

namespace Worker

/-! ## Messages and the replies to them -/

/-- The message tells the worker to stop. -/
def isShutdown (m : Bytes) : Bool :=
  match Store.decode Task.decoder m with
  | .ok .shutdown => true
  | _ => false

/-- The reply that a message is due, unless it tells the worker to stop. -/
def due (m : Bytes) : Option Reply :=
  match Store.decode Task.decoder m with
  | .ok (.index jobId command) => some (handleIndex jobId command)
  | .ok .shutdown => none
  | .error e => some (.rejected e.message)

/-- The messages in front of the first one that tells the worker to stop. -/
def served (ms : List Bytes) : List Bytes := ms.takeWhile fun m => !isShutdown m

/-- The messages behind it. -/
def unserved (ms : List Bytes) : List Bytes := (ms.dropWhile fun m => !isShutdown m).tail

/-- The replies that the messages are due up to there. -/
def dues (ms : List Bytes) : List Reply := (served ms).filterMap due

/-- The reason to stop that the messages give. -/
def reasonOf (ms : List Bytes) : ExitReason := if ms.any isShutdown then .shutdown else .idle

variable {o : Options} {p : Pair} {s : Store} {t : State} {m : Bytes} {ms : List Bytes} {r : Reply}

theorem due_isSome (m : Bytes) : (due m).isSome = !isShutdown m := by
  unfold due isShutdown
  cases Store.decode Task.decoder m with
  | error e => rfl
  | ok task => cases task <;> rfl

theorem due_of_not_shutdown (hm : isShutdown m = false) : ∃ r, due m = some r := by
  apply Option.isSome_iff_exists.1
  rw [due_isSome, hm]
  rfl

section Shutdown

variable (hm : isShutdown m = true) (ms)
include hm

theorem served_of_shutdown : served (m :: ms) = [] :=
  List.takeWhile_cons_of_neg (by simp [hm])

theorem dues_of_shutdown : dues (m :: ms) = [] := by
  rw [dues, served_of_shutdown ms hm, List.filterMap_nil]

theorem unserved_of_shutdown : unserved (m :: ms) = ms := by
  rw [unserved, List.dropWhile_cons_of_neg (by simp [hm]), List.tail_cons]

theorem reasonOf_of_shutdown : reasonOf (m :: ms) = .shutdown := by
  rw [reasonOf, List.any_cons, hm, Bool.true_or, if_pos rfl]

end Shutdown

section Due

variable (hm : due m = some r) (ms)
include hm

theorem not_shutdown_of_due : isShutdown m = false := by
  have h := due_isSome m
  rw [hm, Option.isSome_some] at h
  simpa using h.symm

theorem served_of_due : served (m :: ms) = m :: served ms :=
  List.takeWhile_cons_of_pos (by simp [not_shutdown_of_due hm])

theorem dues_of_due : dues (m :: ms) = r :: dues ms := by
  rw [dues, served_of_due ms hm, List.filterMap_cons_some hm]
  rfl

theorem unserved_of_due : unserved (m :: ms) = unserved ms := by
  rw [unserved, List.dropWhile_cons_of_pos (by simp [not_shutdown_of_due hm])]
  rfl

theorem reasonOf_of_due : reasonOf (m :: ms) = reasonOf ms := by
  rw [reasonOf, List.any_cons, not_shutdown_of_due hm, Bool.false_or]
  rfl

end Due

/-- Every message that is served is due one reply. -/
theorem map_due_served (ms : List Bytes) : (served ms).map due = (dues ms).map some := by
  induction ms with
  | nil => rfl
  | cons m ms ih =>
    cases hm : isShutdown m with
    | true => rw [served_of_shutdown ms hm, dues_of_shutdown ms hm, List.map_nil, List.map_nil]
    | false =>
      obtain ⟨r, hr⟩ := due_of_not_shutdown hm
      rw [served_of_due ms hr, dues_of_due ms hr, List.map_cons, List.map_cons, hr, ih]

/-- A task to index fails without an invocation, and is reported with its path and the number of
words otherwise. -/
theorem due_of_index {jobId : UInt64} {command : CompileCommand}
    (hm : Store.decode Task.decoder m = .ok (.index jobId command)) :
    due m = some (if command.words = [] then .failed jobId "Empty compiler invocation"
      else .indexed jobId command.filePath (.ofNat command.words.length)) := by
  rw [due, hm]
  simp only [handleIndex, List.isEmpty_iff]

/-! ## What the loop does about a message -/

theorem react_of_shutdown (hm : isShutdown m = true) :
    ∃ es, react o t (.ofMessage m) = .stop ⟨.shutdown, t.indexed, t.failed⟩ es := by
  unfold isShutdown at hm
  split at hm
  · next hd =>
    rw [Received.ofMessage, hd]
    exact ⟨_, rfl⟩
  · cases hm

/-- A message that is due a reply gets it, and the reply is counted. -/
theorem react_of_due (hm : due m = some r) :
    ∃ t' es, react o t (.ofMessage m) = .proceed (some r) t' es ∧
      t'.indexed = t.indexed + [r].countP Reply.isIndexed ∧
      t'.failed = t.failed + [r].countP Reply.isFailed := by
  unfold due at hm
  rw [Received.ofMessage]
  split at hm
  · next jobId command hd =>
    obtain rfl := Option.some.inj hm
    rw [hd]
    rcases handleIndex_cases jobId command with ⟨file, count, hr⟩ | ⟨text, hr⟩
    · simp only [react, hr]
      exact ⟨_, _, rfl, rfl, rfl⟩
    · simp only [react, hr]
      exact ⟨_, _, rfl, rfl, rfl⟩
  · cases hm
  · next e hd =>
    obtain rfl := Option.some.inj hm
    rw [hd]
    exact ⟨_, _, rfl, rfl, rfl⟩

/-- Waiting in vain ends in idleness, and changes nothing in what has been counted. -/
theorem result_waitOut (o : Options) (p : Pair) (t : State) :
    (waitOut o p t).result = .ok ⟨.idle, t.indexed, t.failed⟩ := by
  fun_induction waitOut o p t with
  | case1 t timedOut report es h =>
    simp only [react] at h
    split at h
    · cases h
      rfl
    · cases h
  | case2 t timedOut reply t' es h ih =>
    simp only [react] at h
    split at h
    · cases h
    · cases h
      exact ih

/-! ## What the loop comes to -/

/-- What a loop over messages comes to that starts with some counts: `limit` is the most octets of
a reply. -/
structure Outcome (limit : Nat) (t : State) (ms : List Bytes) (run : Run) : Prop where
  /-- where every reply fits, the loop ends in good order -/
  ends : (∀ r ∈ dues ms, r.bytes.length ≤ limit) →
    run.result = .ok ⟨reasonOf ms, t.indexed + (dues ms).countP Reply.isIndexed,
      t.failed + (dues ms).countP Reply.isFailed⟩ ∧
    run.replies = (dues ms).map Reply.bytes ∧ run.left = unserved ms
  /-- the first reply that does not fit stops it -/
  breaks : ∀ sent r later, dues ms = sent ++ r :: later → (∀ r ∈ sent, r.bytes.length ≤ limit) →
    limit < r.bytes.length →
    run.result = .error (.tooLarge r.bytes.length limit) ∧
    run.replies = sent.map Reply.bytes ∧ run.left = ms.drop (sent.length + 1)

/-- The end of the run comes first. -/
theorem Outcome.stop (ms : List Bytes) (limit : Nat) (t : State) (es : List Event)
    (hm : isShutdown m = true) :
    Outcome limit t (m :: ms) ⟨.ok ⟨.shutdown, t.indexed, t.failed⟩, ms, [], es⟩ := by
  constructor
  · intro _
    rw [dues_of_shutdown ms hm, unserved_of_shutdown ms hm, reasonOf_of_shutdown ms hm]
    exact ⟨rfl, rfl, rfl⟩
  · intro sent r later h
    rw [dues_of_shutdown ms hm] at h
    exact absurd h.symm (by simp)

/-- A reply that does not fit comes first. -/
theorem Outcome.tooLarge {limit : Nat} (ms : List Bytes) (t : State) (es : List Event)
    (hr : due m = some r) (hlarge : limit < r.bytes.length) :
    Outcome limit t (m :: ms) ⟨.error (.tooLarge r.bytes.length limit), ms, [], es⟩ := by
  constructor
  · intro hall
    rw [dues_of_due ms hr] at hall
    exact absurd (hall r List.mem_cons_self) (Nat.not_le_of_lt hlarge)
  · intro sent r' later h hsent hr'
    rw [dues_of_due ms hr] at h
    cases sent with
    | nil =>
      obtain ⟨rfl, -⟩ := List.cons.inj h
      exact ⟨rfl, rfl, rfl⟩
    | cons r'' sent =>
      obtain ⟨rfl, -⟩ := List.cons.inj h
      exact absurd (hsent r List.mem_cons_self) (Nat.not_le_of_lt hlarge)

/-- A reply that fits comes first, and is counted. -/
theorem Outcome.after {limit : Nat} {t' : State} {loop : Run} (h : Outcome limit t' ms loop)
    (es : List Event) (hr : due m = some r) (hfits : r.bytes.length ≤ limit)
    (hindexed : t'.indexed = t.indexed + [r].countP Reply.isIndexed)
    (hfailed : t'.failed = t.failed + [r].countP Reply.isFailed) :
    Outcome limit t (m :: ms) (loop.after [r.bytes] es) := by
  constructor
  · intro hall
    rw [dues_of_due ms hr, List.forall_mem_cons] at hall
    obtain ⟨hresult, hreplies, hleft⟩ := h.ends hall.2
    rw [dues_of_due ms hr, reasonOf_of_due ms hr, unserved_of_due ms hr]
    refine ⟨?_, ?_, hleft⟩
    · rw [Run.after, hresult, hindexed, hfailed, Nat.add_assoc, Nat.add_assoc,
        ← List.countP_append, ← List.countP_append, List.singleton_append]
    · rw [Run.after, hreplies, List.map_cons, List.singleton_append]
  · intro sent r' later hdues hsent hr'
    rw [dues_of_due ms hr] at hdues
    cases sent with
    | nil =>
      obtain ⟨rfl, -⟩ := List.cons.inj hdues
      exact absurd hfits (Nat.not_le_of_lt hr')
    | cons r'' sent =>
      obtain ⟨rfl, hrest⟩ := List.cons.inj hdues
      rw [List.forall_mem_cons] at hsent
      obtain ⟨hresult, hreplies, hleft⟩ := h.breaks sent r' later hrest hsent.2 hr'
      refine ⟨hresult, ?_, hleft⟩
      rw [Run.after, hreplies, List.map_cons, List.singleton_append]

/-- The loop, message by message. -/
theorem outcome_serve (o : Options) (p : Pair) (t : State) (ms : List Bytes) :
    Outcome p.toDriver.maxMessageSize t ms (serve o p t ms) := by
  induction ms generalizing t with
  | nil =>
    obtain ⟨hleft, hreplies⟩ := Conversation.waitOut_spec o p t
    refine ⟨fun _ => ⟨result_waitOut o p t, hreplies, hleft⟩, ?_⟩
    intro sent r later h
    exact absurd h.symm (by simp [dues, served])
  | cons m ms ih =>
    cases hm : isShutdown m with
    | true =>
      obtain ⟨es, hreact⟩ := react_of_shutdown (o := o) (t := t) hm
      rw [serve, hreact]
      exact .stop ms _ t _ hm
    | false =>
      obtain ⟨r, hr⟩ := due_of_not_shutdown hm
      obtain ⟨t', es, hreact, hindexed, hfailed⟩ := react_of_due (o := o) (t := t) hr
      rcases Nat.lt_or_ge p.toDriver.maxMessageSize r.bytes.length with hlarge | hfits
      · rw [serve_of_tooLarge hreact hlarge]
        exact .tooLarge ms t _ hr hlarge
      · rw [serve_of_fits hreact hfits]
        exact (ih t').after _ hr hfits hindexed hfailed

/-- **What a run of a worker comes to.** On a pair of queues of which the announcement fits, and with
room in the queue to the driver for one message more than wait for the worker:

* the replies due are one for each message in front of the first that tells the worker to stop, in
  order; a task to index fails if and only if its invocation has no words, and is otherwise
  reported with its number, its path and the number of words;
* where all of them fit, the run ends in good order: it reports why it has stopped and how many
  replies of either kind it has sent, and it has sent the announcement and the replies due and has
  left the messages behind the one that tells it to stop;
* otherwise it ends with an error at the first reply that does not fit, and it has sent the
  announcement and all replies in front of that one and has left the messages behind;
* the worker gets there by steps of its own, none of which has to wait for room. -/
theorem run_outcome (hs : Pair.Stands s p)
    (hready : (Reply.ready o.workerId).bytes.length ≤ p.toDriver.maxMessageSize)
    (hroom : s.HasRoom p.toDriver.queue ((s.pending p.toWorker.queue).length + 1)) :
    let ms := s.pending p.toWorker.queue
    let limit := p.toDriver.maxMessageSize
    let sent := fun rs => s.pending p.toDriver.queue ++
      (Reply.ready o.workerId :: rs).map Reply.bytes
    let behind := (run o p s).2.1
    ((served ms).map due = (dues ms).map some ∧
      ∀ m jobId command, Store.decode Task.decoder m = .ok (.index jobId command) →
        due m = some (if command.words = [] then .failed jobId "Empty compiler invocation"
          else .indexed jobId command.filePath (.ofNat command.words.length))) ∧
    ((∀ r ∈ dues ms, r.bytes.length ≤ limit) →
      (run o p s).1 = .ok ⟨reasonOf ms, (dues ms).countP Reply.isIndexed,
        (dues ms).countP Reply.isFailed⟩ ∧
      behind.pending p.toDriver.queue = sent (dues ms) ∧
      behind.pending p.toWorker.queue = unserved ms) ∧
    (∀ rs r later, dues ms = rs ++ r :: later → (∀ r ∈ rs, r.bytes.length ≤ limit) →
      limit < r.bytes.length →
      (run o p s).1 = .error (.tooLarge r.bytes.length limit) ∧
      behind.pending p.toDriver.queue = sent rs ∧
      behind.pending p.toWorker.queue = ms.drop (rs.length + 1)) ∧
    ∃ y, Conversation.RunsTo o p p { store := s, phase := .attached } y (run o p s).1 ∧
      y.store = behind := by
  intro ms limit sent behind
  obtain ⟨hresult, hleft, hreplies⟩ := run_of_ready hs hready
  obtain ⟨hends, hbreaks⟩ := outcome_serve o p {} ms
  refine ⟨⟨map_due_served ms, fun m jobId command => due_of_index⟩, ?_, ?_,
    Conversation.runsTo_of_run hs rfl hroom⟩
  · intro hfits
    obtain ⟨hreport, hsent, hrest⟩ := hends hfits
    refine ⟨?_, ?_, hleft.trans hrest⟩
    · rw [hresult, hreport, Nat.zero_add, Nat.zero_add]
    · rw [hreplies, hsent, ← List.map_cons]
  · intro rs r later hdues hfits hlarge
    obtain ⟨herror, hsent, hrest⟩ := hbreaks rs r later hdues hfits hlarge
    refine ⟨hresult.trans herror, ?_, hleft.trans hrest⟩
    rw [hreplies, hsent, ← List.map_cons]

/-- Five messages: a task, an `x`, a task without words, the end of the run, and one behind it. -/
def mixed : List Bytes :=
  [Store.encode (Task.index 7 ⟨"/w", "a.c", ["cc", "a.c"], none, none⟩).toJson, [0x78],
    Store.encode (Task.index 8 ⟨"/w", "b.c", [], none, none⟩).toJson,
    Store.encode Task.shutdown.toJson, [0x79]]

/-- The queues of worker zero with these messages in them. -/
def mixedQueues (limit : Nat) : Store where
  queues := [⟨10, limit, mixed⟩, ⟨10, limit, []⟩]
  names := [("/compdb-ipc-w0-to-driver", 1), ("/compdb-ipc-w0-to-worker", 0)]

/-- With room for every reply, the worker answers three of them, and leaves the last one; with room
for no rejection, it stops at the `x`. -/
theorem outcomes_of_mixed :
    ((run {} (pairWithin 8192 .openOnly) (mixedQueues 8192)).1 = .ok ⟨.shutdown, 1, 1⟩ ∧
      (run {} (pairWithin 8192 .openOnly) (mixedQueues 8192)).2.1.pending 1 =
        [.ready 0, .indexed 7 "/w/a.c" 2,
          .rejected "Received message is not valid JSON: expected value at line 1 column 1",
          .failed 8 "Empty compiler invocation"].map Reply.bytes ∧
      (run {} (pairWithin 8192 .openOnly) (mixedQueues 8192)).2.1.pending 0 = [[0x79]]) ∧
    ((run {} (pairWithin 70 .openOnly) (mixedQueues 70)).1 = .error (.tooLarge 101 70) ∧
      (run {} (pairWithin 70 .openOnly) (mixedQueues 70)).2.1.pending 0 = mixed.drop 2) := by
  have hstands : ∀ limit, Pair.Stands (mixedQueues limit) (pairWithin limit .openOnly) :=
    fun _ => ⟨Nat.zero_lt_two, Nat.one_lt_two, Nat.zero_ne_one⟩
  have hroom : ∀ limit, (mixedQueues limit).HasRoom 1 6 := fun limit =>
    ⟨_, rfl, (by decide : 0 + 6 ≤ 10)⟩
  have hq : ∀ limit, (mixedQueues limit).pending (pairWithin limit .openOnly).toWorker.queue =
      mixed := fun _ => rfl
  obtain ⟨hdues, hreason, hunserved⟩ : dues mixed = [.indexed 7 "/w/a.c" 2,
      .rejected "Received message is not valid JSON: expected value at line 1 column 1",
      .failed 8 "Empty compiler invocation"] ∧
    reasonOf mixed = .shutdown ∧ unserved mixed = [[0x79]] := by decide +kernel
  constructor
  · obtain ⟨-, hends, -⟩ := run_outcome (o := {}) (hstands 8192) (by decide +kernel) (hroom 8192)
    rw [hq, hdues, hreason, hunserved] at hends
    exact hends (by decide +kernel)
  · obtain ⟨-, -, hbreaks, -⟩ := run_outcome (o := {}) (hstands 70) (by decide +kernel) (hroom 70)
    obtain ⟨hresult, -, hleft⟩ := hbreaks [.indexed 7 "/w/a.c" 2] _ _ hdues (by decide +kernel)
      (by decide +kernel)
    exact ⟨hresult.trans (by decide +kernel), hleft⟩

end Worker

end IndexFeed.Queue
