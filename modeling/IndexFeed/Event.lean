import IndexFeed.System.Errno
import IndexFeed.Time.Span

/-!
# Events

What the library reports while it works.  An event has a level, a message and named fields.
-/

set_option autoImplicit false

namespace IndexFeed

/-- How much an event matters, most first. -/
inductive Level where
  | error
  | warn
  | info
  | debug
  | trace
  deriving DecidableEq, Repr, Inhabited

/-- The name of a level in lower case. -/
def Level.name : Level → String
  | .error => "error"
  | .warn => "warn"
  | .info => "info"
  | .debug => "debug"
  | .trace => "trace"

/-- How much is logged where the level is the last one that is: one up to five, and zero for
nothing at all. -/
def Level.verbosity : Level → Nat
  | .error => 1
  | .warn => 2
  | .info => 3
  | .debug => 4
  | .trace => 5

/-- Something that happened. -/
inductive Event where
  /-- an entry of a database is no command -/
  | droppedEntry (file : String)
  | openedDatabase (path : String) (size jobs : Nat)
  | parsedBatch (appended dropped offset : Nat) (exhausted : Bool)
  | parseFailed (appended : Nat) (error : String)
  | createdQueue (queue : String) (maxMessages maxMessageSize : Nat)
  | openedQueue (queue : String)
  | sent (queue : String) (size : Nat)
  | received (queue : String) (size : Nat)
  | receiveTimedOut (queue : String) (wait : Span)
  | removedQueue (queue : String)
  | queueNotRemoved (queue : String) (reason : Errno)
  | createdPair (driver : String) (worker : Nat)
  | attachedPair (driver : String) (worker : Nat)
  /-- an environment variable holds no number -/
  | ignoredOverride (name value : String)
  | workerReady (worker : Nat)
  | noTask (worker idle : Nat) (wait : Span)
  | driverQuiet (worker idle : Nat)
  | invalidTask (worker : Nat) (error : String)
  | shuttingDown (worker indexed failed : Nat)
  | handledTask (worker job : Nat) (file : String)
  | finishedParsing (total batches : Nat)
  | finishedWorking (worker : Nat) (reason : String) (indexed failed : Nat)
  deriving DecidableEq, Repr

namespace Event

/-- The level of an event. -/
def level : Event → Level
  | .droppedEntry _ | .sent .. | .received .. | .receiveTimedOut .. => .trace
  | .openedDatabase .. | .parsedBatch .. | .parseFailed .. | .createdQueue .. | .openedQueue _
  | .removedQueue _ | .createdPair .. | .attachedPair .. | .noTask .. | .handledTask .. => .debug
  | .workerReady _ | .shuttingDown .. | .finishedParsing .. | .finishedWorking .. => .info
  | .queueNotRemoved .. | .ignoredOverride .. | .driverQuiet .. | .invalidTask .. => .warn

/-- The message of an event. -/
def message : Event → String
  | .droppedEntry _ => "Dropping malformed compilation database entry"
  | .openedDatabase .. => "Opened compilation database"
  | .parsedBatch .. => "Parsed compilation database batch"
  | .parseFailed .. => "Compilation database parse failed"
  | .createdQueue .. => "Created message queue"
  | .openedQueue _ => "Opened message queue"
  | .sent .. => "Sent message"
  | .received .. => "Received message"
  | .receiveTimedOut .. => "Receive timed out"
  | .removedQueue _ => "Removed message queue"
  | .queueNotRemoved .. => "Failed to remove message queue"
  | .createdPair .. => "Created worker queues"
  | .attachedPair .. => "Attached to worker queues"
  | .ignoredOverride .. => "Ignoring unparsable environment override"
  | .workerReady _ => "Worker ready"
  | .noTask .. => "No task received"
  | .driverQuiet .. => "Driver went quiet, exiting"
  | .invalidTask .. => "Discarding invalid task"
  | .shuttingDown .. => "Worker shutting down"
  | .handledTask .. => "Handled task"
  | .finishedParsing .. => "Finished parsing compilation database"
  | .finishedWorking .. => "Worker finished"

/-- The part of the program that an event comes from. -/
def target : Event → String
  | .droppedEntry _ => "compdb_ipc::compdb::handler"
  | .openedDatabase .. => "compdb_ipc::compdb"
  | .finishedParsing .. | .finishedWorking .. => "compdb_ipc"
  | .parsedBatch .. | .parseFailed .. => "compdb_ipc::compdb::parser"
  | .createdQueue .. | .openedQueue _ | .sent .. | .received .. | .receiveTimedOut ..
  | .removedQueue _ | .queueNotRemoved .. => "compdb_ipc::ipc::queue"
  | .createdPair .. | .attachedPair .. => "compdb_ipc::ipc::pair"
  | .ignoredOverride .. => "compdb_ipc::ipc::options"
  | .workerReady _ | .noTask .. | .driverQuiet .. | .invalidTask .. | .shuttingDown ..
  | .handledTask .. => "compdb_ipc::ipc::worker"

/-- The span that an event happens in: the part of the program that it belongs to, and its name. -/
def span? : Event → Option (String × String)
  | .droppedEntry _ | .parsedBatch .. | .parseFailed .. =>
    some ("compdb_ipc::compdb::parser", "parse_more")
  | _ => none

/-- The fields of an event, by name. -/
def fields : Event → List (String × String)
  | .droppedEntry file => [("file", file)]
  | .openedDatabase path size jobs =>
    [("path", Quoted.path path), ("size_in_bytes", Decimal.text size),
     ("num_jobs", Decimal.text jobs)]
  | .parsedBatch appended dropped offset exhausted =>
    [("appended", Decimal.text appended), ("dropped", Decimal.text dropped),
     ("offset", Decimal.text offset), ("exhausted", if exhausted then "true" else "false")]
  | .parseFailed appended error => [("appended", Decimal.text appended), ("error", error)]
  | .createdQueue queue maxMessages maxMessageSize =>
    [("queue", queue), ("max_messages", Decimal.text maxMessages),
     ("max_message_size", Decimal.text maxMessageSize)]
  | .openedQueue queue | .removedQueue queue => [("queue", queue)]
  | .sent queue size | .received queue size => [("queue", queue), ("size", Decimal.text size)]
  | .receiveTimedOut queue wait => [("queue", queue), ("wait", wait.text)]
  | .queueNotRemoved queue reason => [("queue", queue), ("error", reason.text)]
  | .createdPair driver worker | .attachedPair driver worker =>
    [("driver_id", driver), ("worker_id", Decimal.text worker)]
  | .ignoredOverride name value => [("var", name), ("value", value)]
  | .workerReady worker => [("worker_id", Decimal.text worker)]
  | .noTask worker idle wait =>
    [("worker_id", Decimal.text worker), ("idle", Decimal.text idle), ("wait", wait.text)]
  | .driverQuiet worker idle =>
    [("worker_id", Decimal.text worker), ("idle", Decimal.text idle)]
  | .invalidTask worker error => [("worker_id", Decimal.text worker), ("error", error)]
  | .shuttingDown worker indexed failed =>
    [("worker_id", Decimal.text worker), ("indexed", Decimal.text indexed),
     ("failed", Decimal.text failed)]
  | .handledTask worker job file =>
    [("worker_id", Decimal.text worker), ("job_id", Decimal.text job), ("file", file)]
  | .finishedParsing total batches =>
    [("total", Decimal.text total), ("batches", Decimal.text batches)]
  | .finishedWorking worker reason indexed failed =>
    [("worker_id", Decimal.text worker), ("reason", reason), ("indexed", Decimal.text indexed),
     ("failed", Decimal.text failed)]

end Event

end IndexFeed
