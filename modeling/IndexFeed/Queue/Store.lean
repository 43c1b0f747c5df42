import IndexFeed.Event
import IndexFeed.Json.Value
import IndexFeed.Queue.Options

/-!
# Named message queues

The store holds every queue that exists and the names bound to them.  A queue is a bounded FIFO of
octet strings.  Whoever creates or opens a queue gets a handle, which stays with that very queue:
removing the name of a queue, or binding the name to a new one, changes nothing for the handles
that are open.  Only a handle that created its queue removes a name when it is dropped.

Operations return what they report as events in order.  None of them waits for another program: whoever
sends looks first whether there is room, and a receive finds what is there.
-/

set_option autoImplicit false

namespace IndexFeed.Queue

/-- A bounded FIFO of messages, oldest first. -/
structure Fifo where
  maxMessages : Nat
  maxMessageSize : Nat
  messages : List Bytes := []
  deriving DecidableEq, Repr, Inhabited

/-- Which queue is meant: its place in the order of creation. -/
abbrev QueueId : Type := Nat

/-- All queues, and the names under which some of them can be opened. -/
structure Store where
  queues : List Fifo := []
  names : List (String × QueueId) := []
  deriving DecidableEq, Repr, Inhabited

/-- Which side is responsible for the existence of a queue. -/
inductive Lifecycle where
  /-- this handle created the queue and removes its name when it is dropped -/
  | createOnly
  /-- this handle was attached to a queue that existed -/
  | openOnly
  deriving DecidableEq, Repr, Inhabited

/-- An open queue. -/
structure Handle where
  queue : QueueId
  name : String
  lifecycle : Lifecycle
  /-- the most octets of a message -/
  maxMessageSize : Nat
  deriving DecidableEq, Repr, Inhabited

/-- What the system says to whoever wants to create a queue.  The capacity may be out of its bounds for one
queue; and there may be no room for one more, because there are too many already (`queues_max`) or
because they would take up too much memory together (`RLIMIT_MSGQUEUE`).  So its consent depends on the
queues that there are and on the capacity that is asked for. -/
structure Kernel where
  /-- why the system does not create a queue of some capacity in a store, unless it does -/
  refusal? : Store → Capacity → Option Errno

namespace Kernel

/-- The most that a single queue may hold, on any system. -/
def mostMessages : Nat := 65536
def largestMessage : Nat := 16777216

/-- A system whose limits for a single queue are as high as they can be, and that has room for any number
of queues. -/
def roomy : Kernel where
  refusal? _ c :=
    if 0 < c.maxMessages.toNat && c.maxMessages.toNat ≤ mostMessages
      && 0 < c.maxMessageSize.toNat && c.maxMessageSize.toNat ≤ largestMessage then none
    else some .invalidArgument

/-- The system creates a queue of some capacity in a store, if the name is free. -/
def grants (kernel : Kernel) (s : Store) (c : Capacity) : Bool := (kernel.refusal? s c).isNone

end Kernel

namespace Store

/-- The names of a directory and of the one around it, which the system does not give to queues. -/
def isReserved (name : String) : Bool := name == "/." || name == "/.."

/-- The queue that a name is bound to. -/
def find? (s : Store) (name : String) : Option QueueId := s.names.lookup name

/-- The messages that wait in a queue, oldest first. -/
def pending (s : Store) (q : QueueId) : List Bytes :=
  match s.queues[q]? with
  | some fifo => fifo.messages
  | none => []

/-- The store with other messages in a queue. -/
def setPending (s : Store) (q : QueueId) (messages : List Bytes) : Store :=
  { s with queues := s.queues.modify q fun fifo => { fifo with messages } }

/-- The store with a message put at the end of a queue. -/
def push (s : Store) (q : QueueId) (message : Bytes) : Store :=
  s.setPending q (s.pending q ++ [message])

/-- The store without a name. -/
def removeName (s : Store) (name : String) : Store :=
  { s with names := s.names.filter fun entry => entry.1 != name }

/-- The store with one more queue, which is empty and bound to a name. -/
def withQueue (s : Store) (name : String) (c : Capacity) : Store where
  queues := s.queues ++ [⟨c.maxMessages.toNat, c.maxMessageSize.toNat, []⟩]
  names := (name, s.queues.length) :: s.names

/-- The queue holds as many messages as it can. -/
def isFull (s : Store) (q : QueueId) : Bool :=
  match s.queues[q]? with
  | some fifo => fifo.maxMessages ≤ fifo.messages.length
  | none => true

/-! ## Creating, opening and removing -/

/-- Creates a queue under a name that is not taken, if the kernel agrees. -/
def create (s : Store) (name : String) (c : Capacity) (kernel : Kernel := .roomy) :
    Except Error Handle × Store × List Event :=
  match normalize name with
  | .error e => (.error e, s, [])
  | .ok name =>
    if isReserved name then (.error (.cannotCreate name .accessDenied), s, [])
    else if (s.find? name).isSome then (.error (.cannotCreate name .alreadyThere), s, [])
    else
      match kernel.refusal? s c with
      | some reason => (.error (.cannotCreate name reason), s, [])
      | none =>
        (.ok ⟨s.queues.length, name, .createOnly, c.maxMessageSize.toNat⟩, s.withQueue name c,
          [.createdQueue name c.maxMessages.toNat c.maxMessageSize.toNat])

/-- Opens the queue that a name is bound to. -/
def openNamed (s : Store) (name : String) : Except Error Handle × List Event :=
  match normalize name with
  | .error e => (.error e, [])
  | .ok name =>
    if isReserved name then (.error (.cannotOpen name .accessDenied), [])
    else
      match s.find? name with
      | none => (.error (.cannotOpen name .noEntry), [])
      | some id =>
        let size := match s.queues[id]? with
          | some fifo => fifo.maxMessageSize
          | none => 0
        (.ok ⟨id, name, .openOnly, size⟩, [.openedQueue name])

/-- Removes a name, whoever bound it; whether there was one. -/
def unlink (s : Store) (name : String) : Except Error Bool × Store :=
  match normalize name with
  | .error e => (.error e, s)
  | .ok name =>
    if isReserved name then (.error (.transport .accessDenied), s)
    else if (s.find? name).isSome then (.ok true, s.removeName name)
    else (.ok false, s)

/-- Drops a handle.  A handle that created its queue removes its name. -/
def drop (s : Store) (h : Handle) : Store × List Event :=
  match h.lifecycle with
  | .openOnly => (s, [])
  | .createOnly =>
    if (s.find? h.name).isSome then (s.removeName h.name, [.removedQueue h.name])
    else (s, [.queueNotRemoved h.name .noEntry])

/-! ## Messages -/

/-- Sends octets that are no longer than the queue allows.  A sender waits for as long as the queue is full
(`isFull`), so this is what becomes of a message once there is room for it. -/
def sendBytes (s : Store) (h : Handle) (message : Bytes) :
    Except Error Unit × Store × List Event :=
  if h.maxMessageSize < message.length then
    (.error (.tooLarge message.length h.maxMessageSize), s, [])
  else (.ok (), s.push h.queue message, [.sent h.name message.length])

/-- Sends what a value has been written as.  A value that could not be written is not sent. -/
def sendWritten (s : Store) (h : Handle) (written : Except Json.Error Bytes) :
    Except Error Unit × Store × List Event :=
  match written with
  | .error e => (.error (.cannotEncode e), s, [])
  | .ok message => s.sendBytes h message

/-- The octets of a JSON value as a message. -/
def encode (j : Json) : Bytes := Utf8.encodeChars j.chars

/-- Sends a JSON value. -/
def send (s : Store) (h : Handle) (j : Json) : Except Error Unit × Store × List Event :=
  s.sendWritten h (.ok (encode j))

/-- Where every path in an error about shapes starts. -/
def messageRoot : String := "ipc-message"

/-- A path in an error about shapes.  The empty path is written as a dot, and a path that is
written as a dot is left out. -/
def pathInMessage (path : List Json.Segment) : String :=
  let text := if path.isEmpty then "." else Json.pathText path
  if text = "." then messageRoot else messageRoot ++ "." ++ text

/-- The value of a message.  A value of the wrong shape is told from a text that is no JSON. -/
def decode {α : Type} (d : Json.Decoder α) (message : Bytes) : Except Error α :=
  match d.parse message with
  | .ok a => .ok a
  | .error e =>
    match e.category with
    | .misshapen => .error (.misshapen (pathInMessage e.path) e.message)
    | _ => .error (.notJson e)

/-- Waits for a message.  Nobody sends in the meantime, so an empty queue stays empty until the
time is up.  A message is taken off the queue whether or not it can be decoded. -/
def receive {α : Type} (s : Store) (h : Handle) (d : Json.Decoder α) (wait : Span) :
    Except Error α × Store × List Event :=
  match s.pending h.queue with
  | [] => (.error (.timedOut wait), s, [.receiveTimedOut h.name wait])
  | message :: rest =>
    (decode d message, s.setPending h.queue rest, [.received h.name message.length])

/-- Takes a message if there is one. -/
def tryReceive {α : Type} (s : Store) (h : Handle) (d : Json.Decoder α) :
    Except Error (Option α) × Store × List Event :=
  match s.receive h d .zero with
  | (.ok a, s, events) => (.ok (some a), s, events)
  | (.error e, s, events) => if e.isTimeout then (.ok none, s, events) else (.error e, s, events)

end Store

end IndexFeed.Queue
