import IndexFeed.Proofs.Queue.Message
import IndexFeed.Proofs.Queue.Run

/-!
# Messages that are no tasks

A worker answers a message that is no task with a rejection, which says why, and goes on as if the
message had not been there.  The rejection quotes from the message, in quotes and with escapes, and
has to fit into a message itself: where it does not, the worker stops with an error.
-/

set_option autoImplicit false

namespace IndexFeed.Queue

/-- The octets around the text of a rejection. -/
theorem Reply.length_rejected (s : String) :
    (Reply.rejected s).bytes.length = Json.textWidth s + 32 := by
  have hchars : (Reply.rejected s).toJson.chars =
      ('\x7b' :: (Json.stringChars "type" ++ ':' :: (Json.stringChars "rejected" ++
        ',' :: (Json.stringChars "message" ++ [':', '\"'])))) ++
      s.toList.flatMap Json.escapedChar ++ ['\"', '\x7d'] := by
    simp only [Reply.toJson, Reply.members, Json.chars, Json.memberChars, Json.stringChars,
      List.append_assoc, List.cons_append, List.nil_append]
  have hopen : (Utf8.encodeChars ('\x7b' :: (Json.stringChars "type" ++ ':' ::
      (Json.stringChars "rejected" ++ ',' :: (Json.stringChars "message" ++ [':', '\"']))))).length =
      30 := by decide +kernel
  have hclose : (Utf8.encodeChars ['\"', '\x7d']).length = 2 := by decide +kernel
  rw [Reply.bytes, Store.encode, hchars, Utf8.encodeChars_append, Utf8.encodeChars_append,
    List.length_append, List.length_append, hopen, hclose, Json.textWidth, Json.width]
  omega

namespace Worker

variable {o : Options} {p : Pair} {s : Store} {t : State} {m : Bytes} {ms : List Bytes} {e : Error}
  {limit : Nat}

/-- The message says what to do. -/
def isTask (m : Bytes) : Bool := (Store.decode Task.decoder m).isOk

/-- If the message is no task, the rejection of it has at most so many octets. -/
def Answerable (limit : Nat) (m : Bytes) : Prop :=
  ∀ e, Store.decode Task.decoder m = .error e → (Reply.rejected e.message).bytes.length ≤ limit

theorem isTask_of_ok {task : Task} (hm : Store.decode Task.decoder m = .ok task) :
    isTask m = true := by
  rw [isTask, hm]
  rfl

theorem encodeReply_of_le {h : Handle} {r : Reply} (hr : r.bytes.length ≤ h.maxMessageSize) :
    encodeReply h r = .ok r.bytes :=
  if_neg (Nat.not_lt_of_le hr)

theorem encodeReply_of_lt {h : Handle} {r : Reply} (hr : h.maxMessageSize < r.bytes.length) :
    encodeReply h r = .error (.tooLarge r.bytes.length h.maxMessageSize) :=
  if_pos hr

/-- A worker at a message whose reply is too large. -/
theorem serve_of_tooLarge {r : Reply} {t' : State} {es : List Event}
    (hreact : react o t (.ofMessage m) = .proceed (some r) t' es)
    (hr : p.toDriver.maxMessageSize < r.bytes.length) (rest : List Bytes) :
    serve o p t (m :: rest) =
      ⟨.error (.tooLarge r.bytes.length p.toDriver.maxMessageSize), rest, [],
        .received p.toWorker.name m.length :: es⟩ := by
  rw [serve, hreact]
  dsimp only
  rw [encodeReply_of_lt hr]

/-- A worker at a message whose reply can be sent. -/
theorem serve_of_fits {r : Reply} {t' : State} {es : List Event}
    (hreact : react o t (.ofMessage m) = .proceed (some r) t' es)
    (hr : r.bytes.length ≤ p.toDriver.maxMessageSize) (rest : List Bytes) :
    serve o p t (m :: rest) = (serve o p t' rest).after [r.bytes]
      (.received p.toWorker.name m.length :: es ++ [.sent p.toDriver.name r.bytes.length]) := by
  rw [serve, hreact]
  dsimp only
  rw [encodeReply_of_le hr]

theorem react_of_error (hm : Store.decode Task.decoder m = .error e) :
    react o t (.ofMessage m) = .proceed (some (.rejected e.message)) t
      [.invalidTask o.workerId.toNat e.message] := by
  rw [Received.ofMessage, hm, react]

/-- One message: a task may end the run; any other message is answered, and one that is no task
leaves the worker as it was. -/
theorem serve_cons (o : Options) (p : Pair) (t : State)
    (hm : Answerable p.toDriver.maxMessageSize m) :
    (isTask m = true ∧ ∃ res es, ∀ rest, serve o p t (m :: rest) = ⟨res, rest, [], es⟩) ∨
      ∃ r t' es, Answers m r ∧ (isTask m = false → t' = t) ∧
        ∀ rest, serve o p t (m :: rest) = (serve o p t' rest).after [r.bytes] es := by
  cases hd : Store.decode Task.decoder m with
  | error e =>
    refine .inr ⟨.rejected e.message, t, _, ?_, fun _ => rfl,
      serve_of_fits (react_of_error hd) (hm e hd)⟩
    rw [Answers, hd]
  | ok task =>
    have htask := isTask_of_ok hd
    rcases behind_react_message o t m with ⟨r, t', hbehind, hanswers⟩ | ⟨-, hbehind⟩
    · cases hreact : react o t (.ofMessage m) with
      | stop report es =>
        rw [hreact] at hbehind
        cases hbehind
      | proceed reply t'' es =>
        cases reply with
        | none =>
          rw [hreact] at hbehind
          cases hbehind
        | some reply =>
          rw [hreact] at hbehind
          cases hbehind
          rcases Nat.lt_or_ge p.toDriver.maxMessageSize r.bytes.length with hlarge | hfits
          · exact .inl ⟨htask, _, _, serve_of_tooLarge hreact hlarge⟩
          · exact .inr ⟨r, t', _, hanswers, fun h => absurd (htask.symm.trans h) Bool.noConfusion,
              serve_of_fits hreact hfits⟩
    · cases hreact : react o t (.ofMessage m) with
      | stop report es =>
        refine .inl ⟨htask, .ok report, .received p.toWorker.name m.length :: es, fun rest => ?_⟩
        rw [serve, hreact]
      | proceed reply t'' es =>
        rw [hreact] at hbehind
        cases reply <;> cases hbehind

/-- **A message far below the limit can be answered.**  Each octet of it takes at most seven in the
rejection. -/
theorem answerable_of_length_le (hm : m.length ≤ Kernel.largestMessage)
    (h : 7 * m.length + 256 ≤ limit) : Answerable limit m := by
  intro e he
  have := Store.textWidth_decode_le hm he
  rw [Reply.length_rejected]
  omega

/-- What a run makes of messages, some of which are no tasks: `r` is the run with all of them, and
`r'` the one with the tasks alone. -/
structure Undisturbed (ms : List Bytes) (r r' : Run) : Prop where
  result : r.result = r'.result
  left : r.left.filter isTask = r'.left
  /-- the messages taken are answered in order, each once, unless the last one is a task that ends
  the run -/
  answered : ∃ taken last rs, ms = taken ++ Option.toList last ++ r.left ∧
    (∀ m ∈ last, isTask m = true) ∧ List.Forall₂ Answers taken rs ∧ r.replies = rs.map Reply.bytes

/-- One more message in front, which is answered. -/
theorem Undisturbed.after {r r' : Run} {reply : Reply} (h : Undisturbed ms r r')
    (hm : Answers m reply) (es es' : List Event) (bs : List Bytes) :
    Undisturbed (m :: ms) (r.after [reply.bytes] es) (r'.after bs es') := by
  obtain ⟨taken, last, rs, hms, hlast, hrs, hreplies⟩ := h.answered
  refine ⟨h.result, h.left, m :: taken, last, reply :: rs, ?_, hlast, .cons hm hrs, ?_⟩
  · rw [hms]
    rfl
  · rw [Run.after, hreplies]
    rfl

/-- Serving: by the step above for each message, for whatever the worker has counted so far. -/
theorem serve_undisturbed (o : Options) (p : Pair) (t : State)
    (hms : ∀ m ∈ ms, Answerable p.toDriver.maxMessageSize m) :
    Undisturbed ms (serve o p t ms) (serve o p t (ms.filter isTask)) := by
  induction ms generalizing t with
  | nil =>
    obtain ⟨hleft, hreplies⟩ := Conversation.waitOut_spec o p t
    rw [List.filter_nil, serve]
    refine ⟨rfl, by rw [hleft, List.filter_nil], [], none, [], by rw [hleft]; rfl, ?_, .nil, hreplies⟩
    intro m hm
    cases hm
  | cons m ms ih =>
    rw [List.forall_mem_cons] at hms
    rcases serve_cons o p t hms.1 with ⟨htask, res, es, hserve⟩ | ⟨r, t', es, hanswers, ht', hserve⟩
    · rw [List.filter_cons_of_pos htask, hserve, hserve]
      refine ⟨rfl, rfl, [], some m, [], rfl, ?_, .nil, rfl⟩
      intro m' hm'
      cases hm'
      exact htask
    · have hrest := ih t' hms.2
      cases htask : isTask m with
      | true =>
        rw [List.filter_cons_of_pos htask, hserve, hserve]
        exact hrest.after hanswers _ _ _
      | false =>
        obtain rfl := ht' htask
        rw [List.filter_cons_of_neg (by rw [htask]; exact Bool.noConfusion), hserve]
        exact hrest.after hanswers _ [] []

/-- A run on a pair of queues of which the announcement fits: it serves the messages that wait, and
leaves what the loop leaves. -/
theorem run_of_ready (hs : Pair.Stands s p)
    (hready : (Reply.ready o.workerId).bytes.length ≤ p.toDriver.maxMessageSize) :
    (run o p s).1 = (serve o p {} (s.pending p.toWorker.queue)).result ∧
      (run o p s).2.1.pending p.toWorker.queue =
        (serve o p {} (s.pending p.toWorker.queue)).left ∧
      (run o p s).2.1.pending p.toDriver.queue = s.pending p.toDriver.queue ++
        (Reply.ready o.workerId).bytes :: (serve o p {} (s.pending p.toWorker.queue)).replies := by
  have hsend : s.send p.toDriver (Reply.ready o.workerId).toJson =
      (.ok (), s.push p.toDriver.queue (Reply.ready o.workerId).bytes,
        [.sent p.toDriver.name (Reply.ready o.workerId).bytes.length]) :=
    Store.sendBytes_of_le hready
  rw [run, hsend]
  dsimp only
  rw [Store.pending_push_of_ne hs.ne]
  refine ⟨rfl, ?_, ?_⟩
  · rw [Store.pending_setPending_of_ne hs.ne, Store.pending_setPending (Store.has_push.2 hs.hasToWorker)]
  · rw [Store.pending_setPending
        (Store.has_setPending.2 (Store.has_push.2 hs.hasToDriver)),
      Store.pending_setPending_of_ne hs.ne.symm, Store.pending_push hs.hasToDriver,
      List.append_assoc, List.singleton_append]

/-- Messages that are no tasks and can be answered, up to one that cannot. -/
theorem serve_of_not_answerable (o : Options) (p : Pair) (t : State) (rest : List Bytes)
    (hms : ∀ m ∈ ms, isTask m = false ∧ Answerable p.toDriver.maxMessageSize m)
    (hm : ¬Answerable p.toDriver.maxMessageSize m) :
    (∃ size, p.toDriver.maxMessageSize < size ∧ (serve o p t (ms ++ m :: rest)).result =
      .error (.tooLarge size p.toDriver.maxMessageSize)) ∧
      (serve o p t (ms ++ m :: rest)).left = rest := by
  induction ms with
  | nil =>
    obtain ⟨e, hm⟩ := not_forall.1 hm
    obtain ⟨he, hle⟩ := Classical.not_imp.1 hm
    have hlarge := Nat.lt_of_not_le hle
    rw [List.nil_append, serve_of_tooLarge (react_of_error he) hlarge]
    exact ⟨⟨_, hlarge, rfl⟩, rfl⟩
  | cons m' ms ih =>
    rw [List.forall_mem_cons] at hms
    obtain ⟨⟨htask, hanswerable⟩, hms⟩ := hms
    rcases serve_cons o p t hanswerable with ⟨htask', -⟩ | ⟨r, t', es, -, ht', hserve⟩
    · rw [htask] at htask'
      cases htask'
    · obtain rfl := ht' htask
      rw [List.cons_append, hserve]
      exact ih hms

/-- **What is no task stops a worker only if the rejection is too large.** On a pair of queues of
which the announcement fits:

* a message of `n` octets, where `7 * n + 256` are not more than the limit, can be answered;
* where all messages that wait can be answered, the run comes to what it comes to without those that
  are no tasks, and the messages that it has taken have their replies in order, each one and only one,
  unless the last one is a task that ends the run;
* otherwise the run ends with an error at the first one that cannot be answered, if only messages that
  are no tasks stand in front of it. -/
theorem run_past_invalid (hs : Pair.Stands s p)
    (hready : (Reply.ready o.workerId).bytes.length ≤ p.toDriver.maxMessageSize) :
    (∀ m, m.length ≤ Kernel.largestMessage → 7 * m.length + 256 ≤ p.toDriver.maxMessageSize →
      Answerable p.toDriver.maxMessageSize m) ∧
    ((∀ m ∈ s.pending p.toWorker.queue, Answerable p.toDriver.maxMessageSize m) →
      (run o p s).1 = (run o p (s.setPending p.toWorker.queue
        ((s.pending p.toWorker.queue).filter isTask))).1 ∧
      ∃ taken last rs, s.pending p.toWorker.queue =
          taken ++ Option.toList last ++ (run o p s).2.1.pending p.toWorker.queue ∧
        (∀ m ∈ last, isTask m = true) ∧ List.Forall₂ Answers taken rs ∧
        (run o p s).2.1.pending p.toDriver.queue =
          s.pending p.toDriver.queue ++ (Reply.ready o.workerId :: rs).map Reply.bytes) ∧
    ∀ ms m rest, s.pending p.toWorker.queue = ms ++ m :: rest →
      (∀ m ∈ ms, isTask m = false ∧ Answerable p.toDriver.maxMessageSize m) →
      ¬Answerable p.toDriver.maxMessageSize m →
      (∃ size, p.toDriver.maxMessageSize < size ∧
        (run o p s).1 = .error (.tooLarge size p.toDriver.maxMessageSize)) ∧
      (run o p s).2.1.pending p.toWorker.queue = rest := by
  obtain ⟨hresult, hleft, hreplies⟩ := run_of_ready hs hready
  refine ⟨fun m => answerable_of_length_le, fun hms => ?_, fun ms m rest hq hms hm => ?_⟩
  · obtain ⟨hsame, -, taken, last, rs, htaken, hlast, hrs, hr⟩ := serve_undisturbed o p {} hms
    have htasks : Pair.Stands (s.setPending p.toWorker.queue
        ((s.pending p.toWorker.queue).filter isTask)) p :=
      ⟨Store.has_setPending.2 hs.hasToWorker, Store.has_setPending.2 hs.hasToDriver, hs.ne⟩
    refine ⟨?_, taken, last, rs, ?_, hlast, hrs, ?_⟩
    · rw [hresult, hsame, (run_of_ready htasks hready).1, Store.pending_setPending hs.hasToWorker]
    · rw [hleft]
      exact htaken
    · rw [hreplies, hr, List.map_cons]
  · rw [hresult, hleft, hq]
    exact serve_of_not_answerable o p {} rest hms hm

/-- The pair of worker zero, in a store of its own. -/
def pairWithin (limit : Nat) (l : Lifecycle) : Pair :=
  ⟨⟨0, "/compdb-ipc-w0-to-worker", l, limit⟩, ⟨1, "/compdb-ipc-w0-to-driver", l, limit⟩⟩

/-- The queues of worker zero, after its driver has sent an `x` and the end of the run. -/
def garbageBeforeStop (limit : Nat) : Store where
  queues := [⟨10, limit, [[0x78], Store.encode Task.shutdown.toJson]⟩, ⟨10, limit, []⟩]
  names := [("/compdb-ipc-w0-to-driver", 1), ("/compdb-ipc-w0-to-worker", 0)]

/-- Where there is room for the rejection of the `x`, the worker gets to the end of the run. -/
theorem stops_behind_garbage :
    Pair.Stands (garbageBeforeStop 8192) (pairWithin 8192 .openOnly) ∧
      (Reply.ready 0).bytes.length ≤ 8192 ∧ Answerable 8192 [0x78] ∧
      (run {} (pairWithin 8192 .openOnly) (garbageBeforeStop 8192)).1 = .ok ⟨.shutdown, 0, 0⟩ := by
  have hs : Pair.Stands (garbageBeforeStop 8192) (pairWithin 8192 .openOnly) :=
    ⟨Nat.zero_lt_two, Nat.one_lt_two, Nat.zero_ne_one⟩
  have hready : (Reply.ready 0).bytes.length ≤ 8192 := by decide +kernel
  obtain ⟨hshort, hpast, -⟩ := run_past_invalid (o := {}) hs hready
  have hx : Answerable 8192 [0x78] := hshort [0x78] (by decide) (by decide)
  have hstop : Answerable 8192 (Store.encode Task.shutdown.toJson) :=
    hshort _ (by decide +kernel) (by decide +kernel)
  have hms : ∀ m ∈ (garbageBeforeStop 8192).pending (pairWithin 8192 .openOnly).toWorker.queue,
      Answerable 8192 m := List.forall_mem_cons.2 ⟨hx, List.forall_mem_singleton.2 hstop⟩
  refine ⟨hs, hready, hx, ?_⟩
  rw [(hpast hms).1]
  decide +kernel

/-- Where there is none, the `x` ends the run, which leaves the rest of the messages and replies
nothing. -/
theorem stopped_by_garbage :
    (Pair.create {} { maxMessageSize := 64 }).1 = .ok (pairWithin 64 .createOnly) ∧
      (Pair.attach (garbageBeforeStop 64) { maxMessageSize := 64 }).1 =
        .ok (pairWithin 64 .openOnly) ∧
      (Reply.ready 0).bytes.length ≤ 64 ∧ isTask [0x78] = false ∧
      (run { maxMessageSize := 64 } (pairWithin 64 .openOnly) (garbageBeforeStop 64)).1 =
        .error (.tooLarge 101 64) ∧
      (run { maxMessageSize := 64 } (pairWithin 64 .openOnly) (garbageBeforeStop 64)).2.1.pending 0 =
        [Store.encode Task.shutdown.toJson] ∧
      (run { maxMessageSize := 64 } (pairWithin 64 .openOnly) (garbageBeforeStop 64)).2.1.pending 1 =
        [(Reply.ready 0).bytes] := by
  decide +kernel

end Worker

end IndexFeed.Queue
