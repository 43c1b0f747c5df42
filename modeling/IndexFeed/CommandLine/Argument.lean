import IndexFeed.Log.Settings
import IndexFeed.Queue.Options

/-!
# Arguments of the program

What the program can be given: subcommands, the options of each and the one operand that some of
them take.  `Given` holds what was given at one level of the command line, in front of the
subcommand or behind it, and refuses a value that an argument cannot have.
-/

set_option autoImplicit false

namespace IndexFeed.CommandLine

/-! ## Names -/

/-- What the program can be told to do. -/
inductive Subcommand where
  /-- print the commands of a database -/
  | parse
  /-- report the size of a database -/
  | count
  /-- serve the tasks of a driver -/
  | worker
  deriving DecidableEq, Repr, Inhabited

/-- The word for a subcommand. -/
def Subcommand.name : Subcommand → String
  | .parse => "parse"
  | .count => "count"
  | .worker => "worker"

/-- The subcommand with a name. -/
def Subcommand.named? (word : String) : Option Subcommand :=
  [Subcommand.parse, .count, .worker].find? fun c => c.name == word

/-- Where an argument stands: in front of the subcommand, or behind it. -/
abbrev Scope : Type := Option Subcommand

/-- Everything that can be given besides a subcommand. -/
inductive Argument where
  | verbose
  | quiet
  | logFormat
  /-- the path of a database, which is an operand -/
  | database
  | batchSize
  | bufferSize
  | split
  | json
  | driverId
  | workerId
  | receiveTimeout
  | maxIdleTimeouts
  | help
  | version
  deriving DecidableEq, Repr, Inhabited

namespace Argument

/-- The name behind two dashes. -/
def long? : Argument → Option String
  | .verbose => some "verbose"
  | .quiet => some "quiet"
  | .logFormat => some "log-format"
  | .database => none
  | .batchSize => some "batch-size"
  | .bufferSize => some "buffer-size"
  | .split => some "split"
  | .json => some "json"
  | .driverId => some "driver-id"
  | .workerId => some "worker-id"
  | .receiveTimeout => some "receive-timeout-secs"
  | .maxIdleTimeouts => some "max-idle-timeouts"
  | .help => some "help"
  | .version => some "version"

/-- The letter behind one dash. -/
def short? : Argument → Option Char
  | .verbose => some 'v'
  | .quiet => some 'q'
  | .batchSize => some 'n'
  | .help => some 'h'
  | .version => some 'V'
  | _ => none

/-- The argument has a value. -/
def takesValue : Argument → Bool
  | .verbose | .quiet | .split | .json | .help | .version => false
  | _ => true

/-- The environment variable that stands in for an argument that is not given. -/
def environmentName? : Argument → Option String
  | .driverId => some Queue.Options.driverIdVariable
  | .workerId => some Queue.Options.workerIdVariable
  | .receiveTimeout => some Queue.Options.receiveTimeoutVariable
  | _ => none

/-- How an argument is named in a message. -/
def spelling (a : Argument) : String :=
  match a.long? with
  | some name => "--" ++ name
  | none => "<COMPDB>"

end Argument

namespace Scope

/-- The options that every scope has. -/
def common : List Argument := [.verbose, .quiet, .logFormat, .help]

/-- The options of a scope. -/
def options : Scope → List Argument
  | none => common ++ [.version]
  | some .parse => [.batchSize, .bufferSize, .split] ++ common
  | some .count => .json :: common
  | some .worker => [.driverId, .workerId, .receiveTimeout, .maxIdleTimeouts] ++ common

/-- The scope has a database as its operand. -/
def hasOperand : Scope → Bool
  | some .parse | some .count => true
  | _ => false

/-- The option of a scope with a long name. -/
def long? (s : Scope) (name : String) : Option Argument :=
  s.options.find? fun a => a.long? == some name

/-- The option of a scope with a letter. -/
def short? (s : Scope) (letter : Char) : Option Argument :=
  s.options.find? fun a => a.short? == some letter

end Scope

/-! ## Refusals -/

/-- Why a command line leads to no action. -/
inductive Refusal where
  /-- the help for a scope was asked for -/
  | help (scope : Scope)
  /-- the version was asked for -/
  | version
  /-- there is nothing on the command line -/
  | nothing
  /-- there are options but no subcommand -/
  | noSubcommand
  | unknownSubcommand (word : String)
  | missing (argument : Argument)
  | unknown (word : String)
  | unusableValue (argument : Argument) (value : String)
  | noValue (argument : Argument)
  /-- a value was given to an option that has none -/
  | unwantedValue (argument : Argument) (value : String)
  /-- two arguments exclude each other, or one was given twice -/
  | conflict (argument other : Argument)
  deriving DecidableEq, Repr, Inhabited

/-- What the program exits with: help and version are not mistakes where they were asked for. -/
def Refusal.exitCode : Refusal → Nat
  | .help _ | .version => 0
  | _ => 2

/-! ## Values -/

/-- What was given in one scope. -/
structure Given where
  /-- how often more output was asked for -/
  verbose : Nat := 0
  quiet : Bool := false
  logFormat : Option Log.Format := none
  database : Option String := none
  batchSize : Option UInt64 := none
  bufferSize : Option UInt64 := none
  split : Bool := false
  json : Bool := false
  driverId : Option String := none
  workerId : Option UInt32 := none
  receiveTimeout : Option UInt64 := none
  maxIdleTimeouts : Option UInt32 := none
  deriving DecidableEq, Repr, Inhabited

namespace Given

/-- An argument was given. -/
def has (g : Given) : Argument → Bool
  | .verbose => g.verbose != 0
  | .quiet => g.quiet
  | .logFormat => g.logFormat.isSome
  | .database => g.database.isSome
  | .batchSize => g.batchSize.isSome
  | .bufferSize => g.bufferSize.isSome
  | .split => g.split
  | .json => g.json
  | .driverId => g.driverId.isSome
  | .workerId => g.workerId.isSome
  | .receiveTimeout => g.receiveTimeout.isSome
  | .maxIdleTimeouts => g.maxIdleTimeouts.isSome
  | .help | .version => false

/-- The most times that asking for more output counts. -/
def mostVerbose : Nat := 255

/-- A number of 64 bits. -/
def number64? (value : String) : Option UInt64 :=
  (Decimal.nat? 0x10000000000000000 value).map UInt64.ofNat

/-- A number of 32 bits, which is read as an integer first: zero may have a minus sign. -/
def number32? (value : String) : Option UInt32 :=
  match Decimal.int? value with
  | some i => if 0 ≤ i ∧ i < 0x100000000 then some (.ofNat i.toNat) else none
  | none => none

/-- The form of an argument's value, with what was given before. -/
def put? (g : Given) (value : String) : Argument → Option Given
  | .logFormat => (Log.Format.parse value).toOption.map fun f => { g with logFormat := some f }
  | .database => some { g with database := some value }
  | .batchSize => (number64? value).map fun n => { g with batchSize := some n }
  | .bufferSize => (number64? value).map fun n => { g with bufferSize := some n }
  | .driverId => some { g with driverId := some value }
  | .workerId => (number32? value).map fun n => { g with workerId := some n }
  | .receiveTimeout => (number64? value).map fun n => { g with receiveTimeout := some n }
  | .maxIdleTimeouts => (number32? value).map fun n => { g with maxIdleTimeouts := some n }
  | .verbose | .quiet | .split | .json | .help | .version => none

/-- Gives an argument its value.  An argument is given once, and the path of a database is not
empty. -/
def assign (g : Given) (a : Argument) (value : String) : Except Refusal Given :=
  if g.has a then .error (.conflict a a)
  else if a = .database ∧ value.isEmpty then .error (.noValue a)
  else
    match g.put? value a with
    | some g => .ok g
    | none => .error (.unusableValue a value)

/-- Gives an argument that has no value.  Only asking for more output may be repeated. -/
def switch (scope : Scope) (g : Given) : Argument → Except Refusal Given
  | .help => .error (.help scope)
  | .version => .error .version
  | .verbose => .ok { g with verbose := min (g.verbose + 1) mostVerbose }
  | a =>
    if g.has a then .error (.conflict a a)
    else
      match a with
      | .quiet => .ok { g with quiet := true }
      | .split => .ok { g with split := true }
      | .json => .ok { g with json := true }
      | a => .error (.noValue a)

/-- What is still missing comes from the environment. -/
def withEnvironment (scope : Scope) (env : Environment) (g : Given) : Except Refusal Given :=
  scope.options.foldlM
    (fun g a =>
      if g.has a then .ok g
      else
        match a.environmentName?.bind fun name => env.lookup name with
        | some value => g.assign a value
        | none => .ok g) g

/-- Less output and more output exclude each other. -/
def check (g : Given) : Except Refusal Unit :=
  if g.quiet && g.verbose != 0 then .error (.conflict .quiet .verbose) else .ok ()

end Given

end IndexFeed.CommandLine
