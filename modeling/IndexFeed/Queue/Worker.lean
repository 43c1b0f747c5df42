import IndexFeed.Queue.Message
import IndexFeed.Queue.Pair

/-!
# Workers

A worker announces itself and then answers tasks until it is told to stop or until its driver has
been quiet for too long.  `Worker.react` is the whole of its behaviour: what it does about one
thing that it received.  `Worker.serve` applies it to the messages that wait in a queue, and
`Worker.run` does so on a pair of queues.
-/

set_option autoImplicit false

namespace IndexFeed.Queue.Worker

/-! ## Reactions -/

/-- Why a worker stopped. -/
inductive ExitReason where
  | shutdown
  /-- too many receives brought nothing since the last task -/
  | idle
  deriving DecidableEq, Repr, Inhabited

/-- The name of a reason. -/
def ExitReason.name : ExitReason → String
  | .shutdown => "Shutdown"
  | .idle => "Idle"

/-- What a worker has done so far. -/
structure State where
  /-- receives that brought nothing since the last task; a message that is no task leaves it as it is -/
  idle : Nat := 0
  indexed : Nat := 0
  failed : Nat := 0
  deriving DecidableEq, Repr, Inhabited

/-- The summary of one run. -/
structure Report where
  reason : ExitReason
  indexed : Nat
  failed : Nat
  deriving DecidableEq, Repr, Inhabited

/-- The answer to a task to index. -/
def handleIndex (jobId : UInt64) (command : CompileCommand) : Reply :=
  let words := command.words
  if words.isEmpty then .failed jobId "Empty compiler invocation"
  else .indexed jobId command.filePath (.ofNat words.length)

/-- What a receive brings. -/
inductive Received where
  | task (task : Task)
  /-- a message that is no task -/
  | invalid (error : Error)
  /-- nothing in time -/
  | nothing
  deriving DecidableEq, Repr

/-- What a worker does next: it answers or not and goes on, or it stops. -/
inductive Reaction where
  | proceed (reply : Option Reply) (state : State) (events : List Event)
  | stop (report : Report) (events : List Event)
  deriving DecidableEq, Repr

/-- What a worker does about what it received. -/
def react (o : Options) (s : State) : Received → Reaction
  | .nothing =>
    let idle := s.idle + 1
    let quiet := Event.noTask o.workerId.toNat idle o.receiveTimeout
    if max o.maxIdleTimeouts.toNat 1 ≤ idle then
      .stop ⟨.idle, s.indexed, s.failed⟩ [quiet, .driverQuiet o.workerId.toNat idle]
    else .proceed none { s with idle } [quiet]
  | .invalid e =>
    .proceed (some (.rejected e.message)) s [.invalidTask o.workerId.toNat e.message]
  | .task .shutdown =>
    .stop ⟨.shutdown, s.indexed, s.failed⟩
      [.shuttingDown o.workerId.toNat s.indexed s.failed]
  | .task (.index jobId command) =>
    let reply := handleIndex jobId command
    let s := match reply with
      | .indexed .. => { s with idle := 0, indexed := s.indexed + 1 }
      | _ => { s with idle := 0, failed := s.failed + 1 }
    .proceed (some reply) s [.handledTask o.workerId.toNat jobId.toNat command.file]

/-- What a message is to a worker. -/
def Received.ofMessage (message : Bytes) : Received :=
  match Store.decode Task.decoder message with
  | .ok t => .task t
  | .error e => .invalid e

/-! ## Runs -/

/-- The octets of a reply, unless they are more than the queue allows. -/
def encodeReply (h : Handle) (r : Reply) : Except Error Bytes :=
  let message := Store.encode r.toJson
  if h.maxMessageSize < message.length then .error (.tooLarge message.length h.maxMessageSize)
  else .ok message

/-- What a run comes to: its report or the error that ended it, the messages left over, the replies
sent in order, and the events. -/
structure Run where
  result : Except Error Report
  left : List Bytes
  replies : List Bytes
  events : List Event
  deriving Repr

/-- The run with one more reply in front. -/
def Run.after (r : Run) (replies : List Bytes) (events : List Event) : Run :=
  { r with replies := replies ++ r.replies, events := events ++ r.events }

/-- A receive that brings nothing is counted, and the worker goes on only below its limit. -/
theorem idle_of_react_nothing {o : Options} {s t : State} {r : Option Reply} {es : List Event}
    (h : react o s .nothing = .proceed r t es) :
    t.idle = s.idle + 1 ∧ s.idle + 1 < max o.maxIdleTimeouts.toNat 1 := by
  simp only [react] at h
  split at h
  · cases h
  · next hlt =>
    cases h
    exact ⟨rfl, Nat.lt_of_not_le hlt⟩

/-- Receives in a row that bring nothing, until the worker stops. -/
def waitOut (o : Options) (p : Pair) (s : State) : Run :=
  let timedOut := Event.receiveTimedOut p.toWorker.name o.receiveTimeout
  match _h : react o s .nothing with
  | .stop report events => ⟨.ok report, [], [], timedOut :: events⟩
  | .proceed _ t events => (waitOut o p t).after [] (timedOut :: events)
termination_by max o.maxIdleTimeouts.toNat 1 - s.idle
decreasing_by
  obtain ⟨h₁, h₂⟩ := idle_of_react_nothing ‹_›
  omega

/-- Serves the messages that wait, and then waits for more in vain. -/
def serve (o : Options) (p : Pair) (s : State) : List Bytes → Run
  | [] => waitOut o p s
  | message :: rest =>
    let received := Event.received p.toWorker.name message.length
    match react o s (.ofMessage message) with
    | .stop report events => ⟨.ok report, rest, [], received :: events⟩
    | .proceed none s events => (serve o p s rest).after [] (received :: events)
    | .proceed (some reply) s events =>
      match encodeReply p.toDriver reply with
      | .error e => ⟨.error e, rest, [], received :: events⟩
      | .ok bytes =>
        (serve o p s rest).after [bytes]
          (received :: events ++ [.sent p.toDriver.name bytes.length])

/-- Announces the worker and serves the messages that wait in its queue.  All replies are put into the queue
to the driver, so this is the run of a worker that finds room for them there; one that does not waits
until its driver has made some. -/
def run (o : Options) (p : Pair) (store : Store) :
    Except Error Report × Store × List Event :=
  match store.send p.toDriver (Reply.ready o.workerId).toJson with
  | (.error e, store, events) => (.error e, store, events)
  | (.ok (), store, events) =>
    let r := serve o p {} (store.pending p.toWorker.queue)
    let store := store.setPending p.toWorker.queue r.left
    let store := store.setPending p.toDriver.queue (store.pending p.toDriver.queue ++ r.replies)
    (r.result, store, events ++ Event.workerReady o.workerId.toNat :: r.events)

end IndexFeed.Queue.Worker
