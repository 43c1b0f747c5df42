import IndexFeed.CommandLine.Argument

/-!
# Invocations

A command line is read from left to right, one word at a time, first in front of the subcommand
and then behind it.  A value is looked at when the next argument begins, so a word that is nothing
at all is reported before a bad value right in front of it.  What is given behind the subcommand
counts before what is given in front of it.
-/

set_option autoImplicit false

namespace IndexFeed.CommandLine

/-! ## Words -/

/-- The form of a word. -/
inductive Form where
  /-- two dashes: only operands follow -/
  | separator
  /-- two dashes and a name, perhaps with a value behind an equals sign -/
  | long (name : String) (value : Option String)
  /-- one dash and letters -/
  | short (letters : List Char)
  | plain
  deriving DecidableEq, Repr, Inhabited

/-- The form of a word.  One dash alone is a plain word. -/
def Form.of (word : String) : Form :=
  match word.toList with
  | ['-', '-'] => .separator
  | '-' :: '-' :: cs =>
    .long (String.ofList (cs.takeWhile (· != '=')))
      (match cs.dropWhile (· != '=') with
      | _ :: value => some (String.ofList value)
      | [] => none)
  | '-' :: c :: cs => .short (c :: cs)
  | _ => .plain

/-- The word that asks for help in the place of a subcommand. -/
def helpWord : String := "help"

/-- The answer to asking for the help on some subcommand.  There is nothing to say about help. -/
def helpOn : List String → Refusal
  | [] => .help none
  | [word] =>
    if word = helpWord then .help none
    else
      match Subcommand.named? word with
      | some c => .help (some c)
      | none => .unknownSubcommand word
  | word :: other :: _ =>
    if word = helpWord || (Subcommand.named? word).isSome then .unknownSubcommand other
    else .unknownSubcommand word

/-! ## Scanning -/

/-- What has been read of one scope. -/
structure Scan where
  given : Given := {}
  /-- the last argument that takes a value, until the value has been looked at -/
  pending : Option (Argument × Option String) := none
  /-- only operands follow -/
  operandsOnly : Bool := false
  deriving DecidableEq, Repr, Inhabited

namespace Scan

/-- The next word is the value of an option. -/
def isWaiting (s : Scan) : Bool :=
  match s.pending with
  | some (_, none) => true
  | _ => false

/-- Looks at the last value. -/
def settle (s : Scan) : Except Refusal Scan :=
  match s.pending with
  | none => .ok s
  | some (a, none) => .error (.noValue a)
  | some (a, some value) => do
    let given ← s.given.assign a value
    .ok { s with given, pending := none }

/-- Begins an option whose value is the next word. -/
def await (s : Scan) (a : Argument) : Except Refusal Scan := do
  let s ← s.settle
  .ok { s with pending := some (a, none) }

/-- Reads an option with its value. -/
def assign (s : Scan) (a : Argument) (value : String) : Except Refusal Scan := do
  let s ← s.settle
  let given ← s.given.assign a value
  .ok { s with given }

/-- Reads an option that has no value. -/
def switch (scope : Scope) (s : Scan) (a : Argument) : Except Refusal Scan := do
  let s ← s.settle
  let given ← s.given.switch scope a
  .ok { s with given }

/-- Reads an option by its long name. -/
def readLong (scope : Scope) (s : Scan) (name : String) (value : Option String) :
    Except Refusal Scan :=
  match scope.long? name with
  | none => .error (.unknown ("--" ++ name))
  | some a =>
    match a.takesValue, value with
    | true, some v => s.assign a v
    | true, none => s.await a
    | false, some v => .error (.unwantedValue a v)
    | false, none => s.switch scope a

/-- Reads options by their letters.  What follows the letter of an option that takes a value is
its value, without an equals sign in front. -/
def readShort (scope : Scope) (s : Scan) : List Char → Except Refusal Scan
  | [] => .ok s
  | c :: rest =>
    match scope.short? c with
    | none => .error (.unknown (String.ofList ['-', c]))
    | some a =>
      if a.takesValue then
        match rest with
        | [] => s.await a
        | '=' :: value => s.assign a (String.ofList value)
        | value => s.assign a (String.ofList value)
      else do
        let s ← s.switch scope a
        readShort scope s rest

/-- The scope has its operand already. -/
def hasOperand (s : Scan) : Bool :=
  s.given.database.isSome ||
    match s.pending with
    | some (.database, _) => true
    | _ => false

/-- What is said about a word where no operand can stand. -/
def strayWord (scope : Scope) (s : Scan) (word : String) : Refusal :=
  match scope with
  | some _ => .unknown word
  | none =>
    if s.operandsOnly && (word = helpWord || (Subcommand.named? word).isSome) then .unknown word
    else .unknownSubcommand word

/-- Reads an operand. -/
def readOperand (scope : Scope) (s : Scan) (word : String) : Except Refusal Scan :=
  if scope.hasOperand && !s.hasOperand then do
    let s ← s.settle
    .ok { s with pending := some (.database, some word) }
  else .error (s.strayWord scope word)

/-- Reads a word that is no subcommand. -/
def readWord (scope : Scope) (s : Scan) (word : String) : Except Refusal Scan :=
  if s.operandsOnly then s.readOperand scope word
  else
    match Form.of word with
    | .separator => .ok { s with operandsOnly := true }
    | .long name value => s.readLong scope name value
    | .short letters => s.readShort scope letters
    | .plain =>
      match s.pending with
      | some (a, none) => .ok { s with pending := some (a, some word) }
      | _ => s.readOperand scope word

/-- Reads all words of a scope, which ends behind the name of a subcommand. -/
def readWords (scope : Scope) (s : Scan) :
    List String → Except Refusal (Scan × Option (Subcommand × List String))
  | [] => .ok (s, none)
  | word :: rest =>
    if scope.isNone && !s.operandsOnly && !s.isWaiting then
      if word = helpWord then .error (helpOn rest)
      else
        match Subcommand.named? word with
        | some c => .ok (s, some (c, rest))
        | none => do
          let s ← s.readWord scope word
          readWords scope s rest
    else do
      let s ← s.readWord scope word
      readWords scope s rest

end Scan

/-! ## Invocations -/

/-- What to do. -/
inductive Action where
  | parse (database : String) (batchSize bufferSize : UInt64) (split : Bool)
  | count (database : String) (json : Bool)
  | worker (driverId : String) (workerId : UInt32) (receiveTimeout : Option UInt64)
      (maxIdleTimeouts : Option UInt32)
  deriving DecidableEq, Repr, Inhabited

/-- A command line that makes sense. -/
structure Invocation where
  verbose : Nat
  quiet : Bool
  logFormat : Option Log.Format
  action : Action
  deriving DecidableEq, Repr, Inhabited

namespace Invocation

/-- The sizes of a batch and of the read buffer where none are given. -/
def usualBatchSize : UInt64 := 64
def usualBufferSize : UInt64 := 65536

/-- A value that has to be given. -/
def need {α : Type} (a : Argument) : Option α → Except Refusal α
  | some v => .ok v
  | none => .error (.missing a)

/-- The action that a subcommand and its arguments describe. -/
def actionOf (c : Subcommand) (g : Given) : Except Refusal Action :=
  match c with
  | .parse => do
    let database ← need .database g.database
    .ok (.parse database (g.batchSize.getD usualBatchSize) (g.bufferSize.getD usualBufferSize)
      g.split)
  | .count => do
    let database ← need .database g.database
    .ok (.count database g.json)
  | .worker => do
    let driverId ← need .driverId g.driverId
    let workerId ← need .workerId g.workerId
    .ok (.worker driverId workerId g.receiveTimeout g.maxIdleTimeouts)

/-- The action behind the name of a subcommand, and what was given with it. -/
def readAction (env : Environment) (c : Subcommand) (words : List String) :
    Except Refusal (Action × Given) := do
  let (s, _) ← Scan.readWords (some c) {} words
  let s ← s.settle
  let given ← s.given.withEnvironment (some c) env
  given.check
  let action ← actionOf c given
  .ok (action, given)

/-- Reads a command line.  The part behind the subcommand is finished before the part in front
of it is looked at once more. -/
def read (env : Environment) (words : List String) : Except Refusal Invocation := do
  let (s, sub) ← Scan.readWords none {} words
  match sub with
  | none =>
    let s ← s.settle
    .error (if s.given = {} then .nothing else .noSubcommand)
  | some (c, rest) =>
    let (action, inner) ← readAction env c rest
    let s ← s.settle
    let outer := s.given
    outer.check
    .ok {
      verbose := if inner.verbose = 0 then outer.verbose else inner.verbose
      quiet := outer.quiet || inner.quiet
      logFormat := inner.logFormat <|> outer.logFormat
      action }

/-! ## Logging -/

/-- The level that was asked for, if one was. -/
def levelAsked (i : Invocation) : Option Level :=
  if i.quiet then some .error
  else
    match i.verbose with
    | 0 => none
    | 1 => some .info
    | 2 => some .debug
    | _ => some .trace

/-- The part of the program whose level is set from the command line. -/
def filterTarget : String := "compdb_ipc"

/-- How the program logs: what the command line asks for, then the environment, then the rule for
the action. -/
def logSettings (i : Invocation) (env : Environment) : Log.Settings :=
  let start : Log.Settings := match i.action with
    | .worker .. => .forWorker
    | _ => {}
  let filter := i.levelAsked.map fun l => filterTarget ++ "=" ++ l.name
  let s := ({ start with filter }).withEnvironment env
  { s with format := i.logFormat.getD s.format }

end Invocation

end IndexFeed.CommandLine
