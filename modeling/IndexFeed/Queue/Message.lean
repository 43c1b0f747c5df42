import IndexFeed.Command.Shape

/-!
# Messages

What a driver and a worker say to each other: a `Task` goes to the worker, a `Reply` comes back.
A message is an object whose member `type` says what it is.
-/

set_option autoImplicit false

namespace IndexFeed.Queue

open Json (Misfit Record Shape Tagged)

/-! ## Tasks -/

/-- A message to a worker. -/
inductive Task where
  /-- index one source file, under a number that the reply repeats -/
  | index (jobId : UInt64) (command : CompileCommand)
  /-- stop -/
  | shutdown
  deriving DecidableEq, Repr, Inhabited

namespace Task

/-- The members that describe a task. -/
def members : Task → Json.Object
  | .index jobId command =>
    [("type", .string "index"), ("job_id", .nat jobId.toNat), ("command", command.toJson)]
  | .shutdown => [("type", .string "shutdown")]

/-- A task as a JSON value. -/
def toJson (t : Task) : Json := .object t.members

/-- The fields of a task to index that have been read so far. -/
structure IndexFields where
  jobId : Option Nat := none
  command : Option CompileCommand := none
  deriving DecidableEq, Repr, Inhabited

/-- The length of a task to index in messages. -/
def indexLength : String := "struct variant DriverToWorker::Index with 2 elements"

/-- A task to index as a record. -/
def indexRecord : Record IndexFields Task where
  expected := "struct variant DriverToWorker::Index"
  slots :=
    [.of "job_id" IndexFields.jobId (fun f v => { f with jobId := some v }) (.natural "u64" 64),
     .of "command" IndexFields.command (fun f v => { f with command := some v })
       CompileCommand.shape]
  start := {}
  ofFields f := do
    let jobId ← Record.need "job_id" f.jobId
    let command ← Record.need "command" f.command
    pure (.index (.ofNat jobId) command)
  ofItems n f := do
    let jobId ← Record.needItem indexLength n f.jobId
    let command ← Record.needItem indexLength n f.command
    pure (.index (.ofNat jobId) command)

/-- The end of a run has no fields: other members are ignored, other items are too many. -/
def acceptShutdown : Json → Except Misfit Task
  | .array (item :: items) =>
    .error (.length (item :: items).length (Record.itemsInSequence 0))
  | _ => .ok .shutdown

/-- The tags of tasks. -/
def tags : List String := ["index", "shutdown"]

/-- The task of a tagged value. -/
def ofTagged (t : Tagged) : Except Misfit Task :=
  if t.tag = "index" then indexRecord.accept t.body else acceptShutdown t.body

/-- A task from text. -/
def decoder : Json.Decoder Task :=
  (Tagged.decode "internally tagged enum DriverToWorker" tags).refine ofTagged

end Task

/-! ## Replies -/

/-- A message from a worker. -/
inductive Reply where
  /-- the worker waits for tasks -/
  | ready (workerId : UInt32)
  /-- a file has been indexed: its path and the number of words of its invocation -/
  | indexed (jobId : UInt64) (file : String) (argumentCount : UInt64)
  /-- a file could not be indexed -/
  | failed (jobId : UInt64) (message : String)
  /-- a message was no task -/
  | rejected (message : String)
  deriving DecidableEq, Repr, Inhabited

namespace Reply

/-- The number of the job that a reply answers. -/
def jobId : Reply → Option UInt64
  | .indexed jobId _ _ | .failed jobId _ => some jobId
  | .ready _ | .rejected _ => none

/-- The members that describe a reply. -/
def members : Reply → Json.Object
  | .ready workerId => [("type", .string "ready"), ("worker_id", .nat workerId.toNat)]
  | .indexed jobId file argumentCount =>
    [("type", .string "indexed"), ("job_id", .nat jobId.toNat), ("file", .string file),
     ("argument_count", .nat argumentCount.toNat)]
  | .failed jobId message =>
    [("type", .string "failed"), ("job_id", .nat jobId.toNat), ("message", .string message)]
  | .rejected message => [("type", .string "rejected"), ("message", .string message)]

/-- A reply as a JSON value. -/
def toJson (r : Reply) : Json := .object r.members

/-- The fields of a reply that have been read so far. -/
structure Fields where
  workerId : Option Nat := none
  jobId : Option Nat := none
  file : Option String := none
  argumentCount : Option Nat := none
  message : Option String := none
  deriving DecidableEq, Repr, Inhabited

open Json (Slot)

/-- The fields of replies. -/
def workerIdSlot : Slot Fields :=
  .of "worker_id" Fields.workerId (fun f v => { f with workerId := some v }) (.natural "u32" 32)

def jobIdSlot : Slot Fields :=
  .of "job_id" Fields.jobId (fun f v => { f with jobId := some v }) (.natural "u64" 64)

def fileSlot : Slot Fields :=
  .of "file" Fields.file (fun f v => { f with file := some v }) .text

def argumentCountSlot : Slot Fields :=
  .of "argument_count" Fields.argumentCount (fun f v => { f with argumentCount := some v })
    (.natural "usize" 64)

def messageSlot : Slot Fields :=
  .of "message" Fields.message (fun f v => { f with message := some v }) .text

/-- Builds a reply from its fields; `need` says what a missing one comes to. -/
def readyFrom (need : {α : Type} → String → Option α → Except Misfit α) (f : Fields) :
    Except Misfit Reply := do
  let workerId ← need "worker_id" f.workerId
  pure (.ready (.ofNat workerId))

def indexedFrom (need : {α : Type} → String → Option α → Except Misfit α) (f : Fields) :
    Except Misfit Reply := do
  let jobId ← need "job_id" f.jobId
  let file ← need "file" f.file
  let argumentCount ← need "argument_count" f.argumentCount
  pure (.indexed (.ofNat jobId) file (.ofNat argumentCount))

def failedFrom (need : {α : Type} → String → Option α → Except Misfit α) (f : Fields) :
    Except Misfit Reply := do
  let jobId ← need "job_id" f.jobId
  let message ← need "message" f.message
  pure (.failed (.ofNat jobId) message)

def rejectedFrom (need : {α : Type} → String → Option α → Except Misfit α) (f : Fields) :
    Except Misfit Reply := do
  let message ← need "message" f.message
  pure (.rejected message)

/-- A reply as a record: its fields, its name in messages, and how it is built. -/
def recordOf (name : String) (slots : List (Slot Fields))
    (build : ({α : Type} → String → Option α → Except Misfit α) → Fields → Except Misfit Reply) :
    Record Fields Reply where
  expected := "struct variant WorkerToDriver::" ++ name
  slots := slots
  start := {}
  ofFields := build Record.need
  ofItems n := build fun _ =>
    Record.needItem
      ("struct variant WorkerToDriver::" ++ name ++ " with " ++
        (if slots.length = 1 then "1 element" else Decimal.text slots.length ++ " elements")) n

/-- The record that goes with a tag. -/
def recordFor (tag : String) : Record Fields Reply :=
  if tag = "ready" then recordOf "Ready" [workerIdSlot] readyFrom
  else if tag = "indexed" then
    recordOf "Indexed" [jobIdSlot, fileSlot, argumentCountSlot] indexedFrom
  else if tag = "failed" then recordOf "Failed" [jobIdSlot, messageSlot] failedFrom
  else recordOf "Rejected" [messageSlot] rejectedFrom

/-- The tags of replies. -/
def tags : List String := ["ready", "indexed", "failed", "rejected"]

/-- The reply of a tagged value. -/
def ofTagged (t : Tagged) : Except Misfit Reply := (recordFor t.tag).accept t.body

/-- A reply from text. -/
def decoder : Json.Decoder Reply :=
  (Tagged.decode "internally tagged enum WorkerToDriver" tags).refine ofTagged

end Reply

end IndexFeed.Queue
