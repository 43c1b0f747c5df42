import IndexFeed.Log.Filter
import IndexFeed.System.Environment
import IndexFeed.Text.Keyword

/-!
# Log settings

How a program logs: how much, in which format and where to.  A caller builds settings from one of
two presets; the environment may then override them, except for a filter that the caller has
chosen.
-/

set_option autoImplicit false

namespace IndexFeed.Log

/-! ## Keywords -/

/-- The form of log output. -/
inductive Format where
  /-- for people -/
  | pretty
  /-- one line for each event -/
  | compact
  /-- one JSON object for each event -/
  | json
  deriving DecidableEq, Repr, Inhabited

/-- When a log file is followed by a new one. -/
inductive Rotation where
  | hourly
  | daily
  | never
  deriving DecidableEq, Repr, Inhabited

/-- Why a keyword is refused. -/
inductive Error where
  | unknownFormat (text : String)
  | unknownRotation (text : String)
  deriving DecidableEq, Repr

/-- The text of an error. -/
def Error.message : Error → String
  | .unknownFormat text =>
    "Unknown log format: '" ++ text ++ "'. Valid options: pretty, compact, json"
  | .unknownRotation text =>
    "Unknown log rotation: '" ++ text ++ "'. Valid options: hourly, daily, never"

namespace Format

/-- The name of a format. -/
def name : Format → String
  | .pretty => "pretty"
  | .compact => "compact"
  | .json => "json"

/-- The keywords for formats. -/
def keywords : List (String × Format) :=
  [("pretty", .pretty), ("full", .pretty), ("compact", .compact), ("json", .json)]

/-- The format that a keyword stands for. -/
def parse (s : String) : Except Error Format :=
  match Keyword.find? keywords s with
  | some f => .ok f
  | none => .error (.unknownFormat s)

end Format

namespace Rotation

/-- The keywords for rotations. -/
def keywords : List (String × Rotation) :=
  [("hourly", .hourly), ("daily", .daily), ("never", .never)]

/-- The rotation that a keyword stands for. -/
def parse (s : String) : Except Error Rotation :=
  match Keyword.find? keywords s with
  | some r => .ok r
  | none => .error (.unknownRotation s)

end Rotation

/-- The keywords for levels. -/
def levelKeywords : List (String × Level) :=
  [("error", .error), ("warn", .warn), ("warning", .warn), ("info", .info), ("debug", .debug),
   ("trace", .trace)]

/-- The level that a keyword stands for. -/
def level? (s : String) : Option Level := Keyword.find? levelKeywords s

/-! ## Settings -/

/-- How a program logs. -/
structure Settings where
  /-- the least level that is logged where no filter is set -/
  level : Level := .warn
  format : Format := .pretty
  /-- the log file that is written beside the error output -/
  file : Option String := none
  rotation : Rotation := .daily
  /-- how long each span took is logged when it closes -/
  spanEvents : Bool := false
  /-- a filter in place of the level -/
  filter : Option String := none
  showTarget : Bool := true
  showThreadIds : Bool := false
  showLineNumbers : Bool := false
  deriving DecidableEq, Repr, Inhabited

namespace Settings

/-- The settings of workers, many of which write at the same time. -/
def forWorker : Settings := { level := .info, format := .compact }

/-! ## Environment -/

/-- The variables that change settings. -/
def filterVariable : String := "COMPDB_IPC_LOG"
def commonFilterVariable : String := "RUST_LOG"
def levelVariable : String := "COMPDB_IPC_LOG_LEVEL"
def formatVariable : String := "COMPDB_IPC_LOG_FORMAT"
def fileVariable : String := "COMPDB_IPC_LOG_FILE"

/-- The filter: one that is set already, else the one of the environment. -/
def filterWith (s : Settings) (env : Environment) : Option String :=
  s.filter <|> env.lookup filterVariable <|> env.lookup commonFilterVariable

/-- The level that the environment sets, if it is one. -/
def levelFrom (env : Environment) : Option Level := (env.lookup levelVariable).bind level?

/-- The format that the environment sets, if it is one. -/
def formatFrom (env : Environment) : Option Format :=
  (env.lookup formatVariable).bind fun s => (Format.parse s).toOption

/-- The settings with what the environment overrides.  The level counts only where there is no
filter. -/
def withEnvironment (s : Settings) (env : Environment) : Settings :=
  let filter := s.filterWith env
  { s with
    filter
    level := if filter.isNone then (levelFrom env).getD s.level else s.level
    format := (formatFrom env).getD s.format
    file := env.lookup fileVariable <|> s.file }

/-! ## Events -/

/-- What is wrong with the filter that is set. -/
def fault? (s : Settings) : Option Directive.Fault := s.filter.bind Filter.fault?

/-- What is logged: what the filter says, and the level where there is none that can be
understood. -/
def effectiveFilter (s : Settings) : Filter :=
  (s.filter.bind fun text => (Filter.read text).toOption).getD (.upTo s.level)

end Settings

end IndexFeed.Log
