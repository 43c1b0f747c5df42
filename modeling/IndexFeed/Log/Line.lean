import IndexFeed.Json.Basic
import IndexFeed.Log.Settings

/-!
# Log lines

How an event is written on the error output: its level, where it comes from, its message and its
fields.  For people the fields are written as they are, so that a field with a line feed takes up
several lines; as JSON every event is one line.
-/

set_option autoImplicit false

namespace IndexFeed.Log

/-- The name of a level in a log. -/
def levelMark : Level → String
  | .error => "ERROR"
  | .warn => "WARN"
  | .info => "INFO"
  | .debug => "DEBUG"
  | .trace => "TRACE"

/-- A level, padded to the width of the longest. -/
def paddedMark (l : Level) : String :=
  String.ofList (List.replicate (5 - (levelMark l).length) ' ') ++ levelMark l

/-- The graphic renditions of a terminal that are used. -/
inductive Rendition where
  | faint
  | italic
  deriving DecidableEq, Repr

/-- The number of a rendition. -/
def Rendition.code : Rendition → String
  | .faint => "2"
  | .italic => "3"

/-- The character that starts a control sequence of a terminal. -/
def escape : String := String.singleton (Char.ofNat 0x1b)

/-- A text in a rendition, and back to normal behind it. -/
def Rendition.paint (r : Rendition) (s : String) : String :=
  escape ++ "[" ++ r.code ++ "m" ++ s ++ escape ++ "[0m"

/-- A field for people. -/
def fieldText (name value : String) : String :=
  Rendition.italic.paint name ++ Rendition.faint.paint "=" ++ value

/-- An event for people. -/
def plainLine (e : Event) : String :=
  let span := match e.span? with
    | some (_, name) => name ++ ": "
    | none => ""
  paddedMark e.level ++ " " ++ span ++ e.target ++ ": " ++ e.message ++
    String.join (e.fields.map fun (name, value) => " " ++ fieldText name value)

/-- An event as a JSON value. -/
def eventJson (e : Event) : Json :=
  .object [("level", .string (levelMark e.level)),
    ("fields", .object (("message", .string e.message) ::
      e.fields.map fun (name, value) => (name, .string value))),
    ("target", .string e.target)]

/-- The text of an event. -/
def Format.line (f : Format) (e : Event) : String :=
  match f with
  | .json => (eventJson e).text
  | .pretty | .compact => plainLine e

end IndexFeed.Log
