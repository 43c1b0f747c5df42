import IndexFeed.CommandLine.Help
import IndexFeed.CommandLine.Invocation
import IndexFeed.Database.Feed
import IndexFeed.Log.File
import IndexFeed.Log.Line
import IndexFeed.Queue.Worker
import IndexFeed.System.Memory

/-!
# The program

One run of the program, as a function from the command line, the environment, the time, the world and
the memory of the machine to an outcome: an exit code, what is printed and what the world is like
afterwards.  A run opens its log first, so a log that cannot be opened stops it before it does anything.
-/

set_option autoImplicit false

namespace IndexFeed.Program

/-- What a run can see and change. -/
structure World where
  files : FileTree
  queues : Queue.Store := {}
  deriving DecidableEq, Repr, Inhabited

/-- What a run comes to. -/
structure Outcome where
  /-- the exit code; none for a run that is aborted -/
  code : Option Nat
  /-- the text on the standard output -/
  output : String := ""
  /-- the messages on the error output, in order -/
  diagnostics : List String := []
  world : World
  deriving Repr

/-! ## Failures -/

/-- Why an action fails. -/
inductive Failure where
  | opening (e : Database.Error)
  /-- a database fails behind some commands that have been printed -/
  | parsing (path : String) (commands : Nat) (e : Database.Error)
  | counting (path : String) (e : Database.Error)
  | attaching (o : Queue.Options) (e : Queue.Error)
  | serving (e : Queue.Error)
  deriving DecidableEq, Repr

/-- The text of a failure and the texts of what lies behind it, outermost first. -/
def Failure.chain : Failure → List String
  | .opening e => e.message :: e.reason.toList
  | .parsing path commands e =>
    ("Failed to parse " ++ path ++ " after " ++ Decimal.text commands ++ " commands")
      :: e.message :: e.reason.toList
  | .counting path e => ("Failed to count jobs in " ++ path) :: e.message :: e.reason.toList
  | .attaching o e =>
    ("Worker " ++ Decimal.text o.workerId.toNat ++ " could not attach to queues of driver '"
        ++ o.driverId ++ "'")
      :: e.message :: e.reason.toList
  | .serving e => e.message :: e.reason.toList

/-- How a failure is reported. -/
def Failure.report (f : Failure) : List String :=
  match f.chain with
  | [] => []
  | first :: causes => ("error: " ++ first) :: causes.map ("  caused by: " ++ ·)

/-- How an action ends. -/
inductive Ending where
  | done
  | failed (f : Failure)
  /-- the program gives up without a report -/
  | crashed
  /-- the program is stopped on the spot: there is not enough memory -/
  | aborted
  deriving DecidableEq, Repr

namespace Ending

/-- The exit code. -/
def code : Ending → Option Nat
  | .done => some 0
  | .failed _ => some 1
  | .crashed => some 101
  | .aborted => none

/-- What is reported. -/
def report : Ending → List String
  | .failed f => f.report
  | _ => []

end Ending

/-! ## Actions -/

/-- The octets that one place in a batch takes. -/
def commandOctets : Nat := 120

/-- What becomes of the program when it asks for some octets, unless it gets them. -/
def allocationEnding? (m : Memory) (octets : Nat) : Option Ending :=
  if largestAllocation < octets then some .crashed
  else if m.octets < octets then some .aborted
  else none

/-- The record that is printed for a command.  With `split`, a command whose invocation is one
text is printed in words. -/
def printed (split : Bool) (c : CompileCommand) : CompileCommand :=
  if split && c.arguments.isEmpty then { c with arguments := c.words, command := none } else c

/-- A line of output for each command. -/
def linesOf (split : Bool) (commands : List CompileCommand) : String :=
  String.join (commands.map fun c => (printed split c).toJson.text ++ "\n")

/-- What an action prints and reports, and how it ends. -/
structure Deed where
  output : String := ""
  events : List Event := []
  ending : Ending
  deriving DecidableEq, Repr

/-- Prints the batches of a feed one after the other, behind so many commands in so many batches.  The
commands of a batch are printed and counted before its error is looked at. -/
def printBatches (split : Bool) (path : String) (total batches : Nat) (f : Database.Feed) : Deed :=
  if _hf : f.exhausted then { events := [.finishedParsing total batches], ending := .done }
  else
    match _h : f.next with
    | (.error e, batch, _, events) =>
      { output := linesOf split batch
        events
        ending := .failed (.parsing path (total + batch.length) e) }
    | (.ok _, batch, g, events) =>
      let rest := printBatches split path (total + batch.length) (batches + 1) g
      { rest with output := linesOf split batch ++ rest.output, events := events ++ rest.events }
termination_by if f.exhausted then 0 else f.left + 1
decreasing_by
  rw [if_neg _hf]
  split
  · exact Nat.succ_pos f.left
  · next hg => exact Nat.succ_lt_succ (Database.Feed.next_lt ‹_› (Bool.eq_false_iff.2 hg))

/-- Prints the commands of a database.  The read buffer is asked for first, and then the places of a
batch. -/
def parse (m : Memory) (files : FileTree) (path : String) (batchSize bufferSize : Nat)
    (split : Bool) : Deed :=
  match Database.File.openAt files path with
  | (.error e, events) => { events, ending := .failed (.opening e) }
  | (.ok file, opening) =>
    match allocationEnding? m bufferSize <|> allocationEnding? m (batchSize * commandOctets) with
    | some ending => { events := opening, ending }
    | none =>
      match ({ buffer := bufferSize } : Database.Feed).bind file batchSize with
      | .error e => { events := opening, ending := .failed (.opening e) }
      | .ok feed =>
        let deed := printBatches split path 0 0 feed
        { deed with events := opening ++ deed.events }

/-- The report on a database as a JSON value. -/
def reportJson (file : Database.File) (jobs : Nat) : Json :=
  .object [("estimated_jobs", .nat file.jobs), ("jobs", .nat jobs), ("path", .string file.path),
    ("size_bytes", .nat file.size)]

/-- The report on a database for people. -/
def reportText (file : Database.File) (jobs : Nat) : String :=
  "Path:           " ++ file.path ++ "\n" ++
  "Size:           " ++ Decimal.text file.size ++ " bytes\n" ++
  "Estimated jobs: " ++ Decimal.text file.jobs ++ "\n" ++
  "Jobs:           " ++ Decimal.text jobs ++ "\n"

/-- Reports the size of a database and its number of jobs, estimated and counted. -/
def count (files : FileTree) (path : String) (json : Bool) : Deed :=
  match Database.File.openAt files path with
  | (.error e, events) => { events, ending := .failed (.opening e) }
  | (.ok file, events) =>
    match file.count.1 with
    | .error e => { events, ending := .failed (.counting path e) }
    | .ok jobs =>
      { output := if json then (reportJson file jobs).indented ++ "\n" else reportText file jobs
        events
        ending := .done }

/-- The options of a worker: the environment, and then the command line. -/
def workerOptions (env : Environment) (driverId : String) (workerId : UInt32)
    (receiveTimeout : Option UInt64) (maxIdleTimeouts : Option UInt32) :
    Queue.Options × List Event :=
  let (o, events) := ({} : Queue.Options).withEnvironment env
  ({ o with
      driverId
      workerId
      receiveTimeout := (receiveTimeout.map fun n => Span.ofSeconds n.toNat).getD o.receiveTimeout
      maxIdleTimeouts := maxIdleTimeouts.getD o.maxIdleTimeouts },
   events)

/-- Serves the tasks in the queues of a driver. -/
def work (queues : Queue.Store) (o : Queue.Options) : Queue.Store × Deed :=
  match Queue.Pair.attach queues o with
  | (.error e, events) => (queues, { events, ending := .failed (.attaching o e) })
  | (.ok pair, attaching) =>
    let (result, queues, serving) := Queue.Worker.run o pair queues
    let (queues, dropping) := pair.drop queues
    match result with
    | .ok r =>
      let finished := Event.finishedWorking o.workerId.toNat r.reason.name r.indexed r.failed
      (queues, { events := attaching ++ serving ++ [finished] ++ dropping, ending := .done })
    | .error e =>
      (queues, { events := attaching ++ serving ++ dropping, ending := .failed (.serving e) })

/-! ## Runs -/

/-- Does what was asked for. -/
def perform (m : Memory) (action : CommandLine.Action) (env : Environment) (w : World) :
    World × Deed :=
  match action with
  | .parse database batchSize bufferSize split =>
    (w, parse m w.files database batchSize.toNat bufferSize.toNat split)
  | .count database json => (w, count w.files database json)
  | .worker driverId workerId receiveTimeout maxIdleTimeouts =>
    let (o, overriding) := workerOptions env driverId workerId receiveTimeout maxIdleTimeouts
    let (queues, deed) := work w.queues o
    ({ w with queues }, { deed with events := overriding ++ deed.events })

/-- Opens the log file if there is one. -/
def openLog (s : Log.Settings) (now : Log.Moment) (files : FileTree) : Except Errno FileTree :=
  match s.file with
  | none => .ok files
  | some path => (Log.Target.ofPath path).create files (s.rotation.ending now)

/-- What is said about a filter that cannot be understood, once for each place that is logged
to. -/
def filterWarnings (s : Log.Settings) : List String :=
  match s.filter, s.fault? with
  | some filter, some _ =>
    let warning := "Warning: Invalid log filter '" ++ filter ++ "', using default"
    if s.file.isSome then [warning, warning] else [warning]
  | _, _ => []

/-- What is logged of some events on the error output. -/
def logged (s : Log.Settings) (events : List Event) : List String :=
  (events.filter s.effectiveFilter.admits).map s.format.line

/-! ## What a run depends on -/

/-- The environment variables that a run looks at. -/
def environmentNames : List String :=
  [Queue.Options.driverIdVariable, Queue.Options.workerIdVariable,
   Queue.Options.receiveTimeoutVariable, Queue.Options.maxMessageSizeVariable,
   Log.Settings.filterVariable, Log.Settings.commonFilterVariable, Log.Settings.levelVariable,
   Log.Settings.formatVariable, Log.Settings.fileVariable]

/-- The paths of the files that a run reads or creates. -/
def paths (words : List String) (env : Environment) (now : Log.Moment) : List String :=
  match CommandLine.Invocation.read env words with
  | .error _ => []
  | .ok i =>
    let settings := i.logSettings env
    let log := settings.file.map fun path =>
      (Log.Target.ofPath path).path (settings.rotation.ending now)
    let database := match i.action with
      | .parse database .. | .count database _ => some database
      | .worker .. => none
    log.toList ++ database.toList

/-! ## The run itself -/

/-- What a refused command line comes to. -/
def refuse (r : CommandLine.Refusal) (w : World) : Outcome :=
  let output := match r with
    | .help scope => scope.help
    | .version => CommandLine.programName ++ " " ++ CommandLine.programVersion ++ "\n"
    | _ => ""
  { code := some r.exitCode
    output
    diagnostics := r.message?.toList.map ("error: " ++ ·)
    world := w }

/-- Runs the program on a machine with some memory.  It crashes where the log file cannot be opened and
where the filter would be cut inside a character. -/
def run (words : List String) (env : Environment) (now : Log.Moment) (w : World)
    (m : Memory := {}) : Outcome :=
  match CommandLine.Invocation.read env words with
  | .error r => refuse r w
  | .ok i =>
    let settings := i.logSettings env
    match openLog settings now w.files with
    | .error _ => { code := Ending.crashed.code, world := w }
    | .ok files =>
      if settings.fault? = some .insideCharacter then
        { code := Ending.crashed.code, world := { w with files } }
      else
        let (w, deed) := perform m i.action env { w with files }
        { code := deed.ending.code
          output := deed.output
          diagnostics :=
            filterWarnings settings ++ logged settings deed.events ++ deed.ending.report
          world := w }

end IndexFeed.Program
