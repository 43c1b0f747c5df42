import IndexFeed.Event
import IndexFeed.Json.Shape
import IndexFeed.Queue.Name
import IndexFeed.System.Environment
import IndexFeed.Text.Blank

/-!
# Options of a queue pair

What a driver and its workers agree on: who they are, how large their queues are and how long a
receive waits.  Both sides derive the names of their two queues from the options, so the ids are
all that has to travel.
-/

set_option autoImplicit false

namespace IndexFeed.Queue

/-- How much a new queue holds. -/
structure Capacity where
  maxMessages : UInt64 := 10
  maxMessageSize : UInt64 := 8192
  deriving DecidableEq, Repr, Inhabited

/-- What a driver and one of its workers agree on. -/
structure Options where
  /-- identifies one indexing run -/
  driverId : String := "compdb-ipc"
  /-- index of the worker within the run -/
  workerId : UInt32 := 0
  maxMessages : UInt64 := 10
  maxMessageSize : UInt64 := 8192
  /-- how long a single receive waits -/
  receiveTimeout : Span := .ofSeconds 120
  /-- receives without a message since the last task after which a worker gives up -/
  maxIdleTimeouts : UInt32 := 3
  deriving DecidableEq, Repr, Inhabited

/-- Where a queue of a pair leads. -/
inductive Direction where
  | toWorker
  | toDriver
  deriving DecidableEq, Repr, Inhabited

/-- The last part of the name of a queue. -/
def Direction.tag : Direction → String
  | .toWorker => "to-worker"
  | .toDriver => "to-driver"

namespace Options

/-- The capacity of new queues. -/
def capacity (o : Options) : Capacity := ⟨o.maxMessages, o.maxMessageSize⟩

/-! ## Names -/

/-- The name of a queue before it gets its slash. -/
def plainName (o : Options) (d : Direction) : String :=
  o.driverId ++ "-w" ++ Decimal.text o.workerId.toNat ++ "-" ++ d.tag

/-- The name of a queue.  The driver id must not be empty or hold a slash. -/
def queueName (o : Options) (d : Direction) : Except Error String :=
  if o.driverId.isEmpty || o.driverId.toList.contains '/' then .error (.invalidName o.driverId)
  else normalize (o.plainName d)

/-! ## JSON -/

/-- The members that describe options. -/
def members (o : Options) : Json.Object :=
  [("driver_id", .string o.driverId),
   ("worker_id", .nat o.workerId.toNat),
   ("max_messages", .nat o.maxMessages.toNat),
   ("max_message_size", .nat o.maxMessageSize.toNat),
   ("receive_timeout", .number (.float o.receiveTimeout.toFloat)),
   ("max_idle_timeouts", .nat o.maxIdleTimeouts.toNat)]

/-- Options as a JSON value. -/
def toJson (o : Options) : Json := .object o.members

/-- The fields of options read so far. -/
structure Fields where
  driverId : Option String := none
  workerId : Option Nat := none
  maxMessages : Option Nat := none
  maxMessageSize : Option Nat := none
  receiveTimeout : Option Span := none
  maxIdleTimeouts : Option Nat := none
  deriving DecidableEq, Repr, Inhabited

/-- The options, with the usual value for each field that was not given. -/
def Fields.build (f : Fields) : Options where
  driverId := f.driverId.getD ({} : Options).driverId
  workerId := (f.workerId.map UInt32.ofNat).getD ({} : Options).workerId
  maxMessages := (f.maxMessages.map UInt64.ofNat).getD ({} : Options).maxMessages
  maxMessageSize := (f.maxMessageSize.map UInt64.ofNat).getD ({} : Options).maxMessageSize
  receiveTimeout := f.receiveTimeout.getD ({} : Options).receiveTimeout
  maxIdleTimeouts := (f.maxIdleTimeouts.map UInt32.ofNat).getD ({} : Options).maxIdleTimeouts

open Json in
/-- Options as a record; every field may be left out. -/
def record : Record Fields Options where
  expected := "struct IpcOptions"
  slots :=
    [.of "driver_id" Fields.driverId (fun f v => { f with driverId := some v }) .text,
     .of "worker_id" Fields.workerId (fun f v => { f with workerId := some v })
       (.natural "u32" 32),
     .of "max_messages" Fields.maxMessages (fun f v => { f with maxMessages := some v })
       (.natural "usize" 64),
     .of "max_message_size" Fields.maxMessageSize
       (fun f v => { f with maxMessageSize := some v }) (.natural "usize" 64),
     .of "receive_timeout" Fields.receiveTimeout (fun f v => { f with receiveTimeout := some v })
       (Shape.float.refine Span.ofFloat),
     .of "max_idle_timeouts" Fields.maxIdleTimeouts
       (fun f v => { f with maxIdleTimeouts := some v }) (.natural "u32" 32)]
  start := {}
  ofFields f := .ok f.build
  ofItems _ f := .ok f.build

/-- The shape of options. -/
def shape : Json.Shape Options := record.shape

/-! ## Environment -/

/-- The variables that change options. -/
def driverIdVariable : String := "COMPDB_IPC_DRIVER_ID"
def workerIdVariable : String := "COMPDB_IPC_WORKER_ID"
def receiveTimeoutVariable : String := "COMPDB_IPC_RECEIVE_TIMEOUT_SECS"
def maxMessageSizeVariable : String := "COMPDB_IPC_MAX_MESSAGE_SIZE"

/-- The number below `bound` that a variable holds, blanks around it aside.  A variable that holds
anything else is reported and counts as unset. -/
def numberFrom (env : Environment) (bound : Nat) (name : String) : Option Nat × List Event :=
  match env.lookup name with
  | none => (none, [])
  | some raw =>
    match Decimal.nat? bound (Blank.trim raw) with
    | some n => (some n, [])
    | none => (none, [.ignoredOverride name raw])

/-- The options with what the environment overrides. -/
def withEnvironment (o : Options) (env : Environment) : Options × List Event :=
  let driverId := match env.lookup driverIdVariable with
    | some id => if id.isEmpty then o.driverId else id
    | none => o.driverId
  let (workerId, e₁) := numberFrom env 0x100000000 workerIdVariable
  let (seconds, e₂) := numberFrom env 0x10000000000000000 receiveTimeoutVariable
  let (size, e₃) := numberFrom env 0x10000000000000000 maxMessageSizeVariable
  ({ o with
      driverId
      workerId := (workerId.map UInt32.ofNat).getD o.workerId
      receiveTimeout := (seconds.map Span.ofSeconds).getD o.receiveTimeout
      maxMessageSize := (size.map UInt64.ofNat).getD o.maxMessageSize },
   e₁ ++ e₂ ++ e₃)

end Options

end IndexFeed.Queue
