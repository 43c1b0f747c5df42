import IndexFeed.CommandLine.Argument

/-!
# Help

What the program says about itself and about command lines that it refuses.
-/

set_option autoImplicit false

namespace IndexFeed.CommandLine

/-- The name of the program and its version. -/
def programName : String := "compdb-ipc"
def programVersion : String := "0.1.0"

namespace Argument

/-- The column of an argument in the help: its letter, its name and what its value is. -/
def column : Argument → String
  | .verbose => "-v, --verbose..."
  | .quiet => "-q, --quiet"
  | .logFormat => "    --log-format <LOG_FORMAT>"
  | .database => "<COMPDB>"
  | .batchSize => "-n, --batch-size <BATCH_SIZE>"
  | .bufferSize => "    --buffer-size <BUFFER_SIZE>"
  | .split => "    --split"
  | .json => "    --json"
  | .driverId => "    --driver-id <DRIVER_ID>"
  | .workerId => "    --worker-id <WORKER_ID>"
  | .receiveTimeout => "    --receive-timeout-secs <RECEIVE_TIMEOUT_SECS>"
  | .maxIdleTimeouts => "    --max-idle-timeouts <MAX_IDLE_TIMEOUTS>"
  | .help => "-h, --help"
  | .version => "-V, --version"

/-- What an argument is for. -/
def purpose : Argument → String
  | .verbose => "Enable verbose logging (-v info, -vv debug, -vvv trace)"
  | .quiet => "Only log errors"
  | .logFormat => "Log format (pretty, compact, json)"
  | .database => "Path to compile_commands.json"
  | .batchSize => "Commands pulled per batch [default: 64]"
  | .bufferSize => "Read buffer size in bytes"
  | .split => "Emit the tokenized invocation as `arguments` even for `command` entries"
  | .json => "Print the report as JSON"
  | .driverId => "Run identifier the driver used to name the queues"
  | .workerId => "Index of this worker within the run"
  | .receiveTimeout => "Seconds to wait for each task"
  | .maxIdleTimeouts => "Exit after this many consecutive timeouts"
  | .help => "Print help"
  | .version => "Print version"

end Argument

/-- What a subcommand does. -/
def Subcommand.purpose : Subcommand → String
  | .parse => "Print every valid compile command as one JSON line"
  | .count => "Report the size and job count of a compilation database"
  | .worker => "Serve tasks from queues created by a driver"

/-- A list of names with their purposes, in two columns. -/
def table (rows : List (String × String)) : String :=
  let width := (rows.map fun r => r.1.length).foldl max 0
  String.join (rows.map fun (name, purpose) =>
    "  " ++ name ++ String.ofList (List.replicate (width - name.length + 2) ' ') ++ purpose ++ "\n")

/-- The row of an argument, with the variable that stands in for it. -/
def Argument.row (a : Argument) : String × String :=
  match a.environmentName? with
  | some name => (a.column, a.purpose ++ " [env: " ++ name ++ "=]")
  | none => (a.column, a.purpose)

/-- The rows of all subcommands, and of the word that asks for help. -/
def Subcommand.rows : List (String × String) :=
  [Subcommand.parse, .count, .worker].map (fun c => (c.name, c.purpose))
    ++ [("help", "Print this message or the help of the given subcommand(s)")]

namespace Scope

/-- What has to be given in a scope, as it stands in the usage line. -/
def usage : Scope → String
  | none => "[OPTIONS] <COMMAND>"
  | some .worker => "worker [OPTIONS] --driver-id <DRIVER_ID> --worker-id <WORKER_ID>"
  | some c => c.name ++ " [OPTIONS] " ++ Argument.database.column

/-- What a scope is for. -/
def purpose : Scope → String
  | none => "Streaming compilation-database feed and JSON message queues for multi-process indexers"
  | some c => c.purpose

/-- The help for a scope.  The size of the read buffer is not mentioned. -/
def help (s : Scope) : String :=
  s.purpose ++ "\n\nUsage: " ++ programName ++ " " ++ s.usage ++ "\n"
    ++ (if s.isNone then "\nCommands:\n" ++ table Subcommand.rows else "")
    ++ (if s.hasOperand then "\nArguments:\n" ++ table [Argument.database.row] else "")
    ++ "\nOptions:\n" ++ table ((s.options.filter (· != .bufferSize)).map Argument.row)

end Scope

/-- What is said about a command line that is refused, if anything is. -/
def Refusal.message? : Refusal → Option String
  | .help _ | .version | .nothing => none
  | .noSubcommand => some ("'" ++ programName ++ "' requires a subcommand but one was not provided")
  | .unknownSubcommand word => some ("unrecognized subcommand '" ++ word ++ "'")
  | .missing a => some ("the required argument '" ++ a.spelling ++ "' was not provided")
  | .unknown word => some ("unexpected argument '" ++ word ++ "' found")
  | .unusableValue a value => some ("invalid value '" ++ value ++ "' for '" ++ a.spelling ++ "'")
  | .noValue a => some ("a value is required for '" ++ a.spelling ++ "' but none was supplied")
  | .unwantedValue a value =>
    some ("unexpected value '" ++ value ++ "' for '" ++ a.spelling ++ "' found")
  | .conflict a b =>
    some ("the argument '" ++ a.spelling ++ "' cannot be used " ++
      if a = b then "multiple times" else "with '" ++ b.spelling ++ "'")

end IndexFeed.CommandLine
