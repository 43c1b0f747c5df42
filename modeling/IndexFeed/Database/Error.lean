import IndexFeed.System.Errno
import IndexFeed.Json.Fault

/-!
# Errors of compilation databases

Why a compilation database cannot be opened or read, with the text of each error and the error
that lies behind it.
-/

set_option autoImplicit false

namespace IndexFeed.Database

/-- What the framing of the root array allows where something else was found. -/
inductive Wanted where
  | separator
  | object
  | ending
  deriving DecidableEq, Repr, Inhabited

/-- How it is named in a message. -/
def Wanted.text : Wanted → String
  | .separator => "',' or ']'"
  | .object => "an object"
  | .ending => "end of input"

/-- What is wrong with the text of a database. -/
inductive Complaint where
  /-- an earlier error has stopped the reader -/
  | stopped
  | notAnArray
  | notAnObject
  | unexpected (found : UInt8) (wanted : Wanted)
  /-- an element that is no JSON object, with the offset of its brace -/
  | element (start : Nat) (error : Json.Error)
  /-- a remark in a caller's words -/
  | remark (text : String)
  deriving DecidableEq, Repr

/-- The text of a complaint. -/
def Complaint.text : Complaint → String
  | .stopped => "reader stopped after an earlier error"
  | .notAnArray => "compilation database must be a JSON array"
  | .notAnObject => "compilation database entries must be objects"
  | .unexpected found wanted =>
    "expected " ++ wanted.text ++ ", found '" ++ Octet.escaped found ++ "'"
  | .element start error =>
    "invalid entry starting at byte " ++ Decimal.text start ++ ": " ++ error.message
  | .remark text => text

/-- Why a database cannot be opened or read. -/
inductive Error where
  | cannotOpen (path : String) (reason : FileFailure)
  | notAFile (path : String)
  | unreadable (reason : FileFailure)
  | malformed (offset : Nat) (complaint : Complaint)
  | endsEarly (offset : Nat)
  /-- a feed that has a database already was given one more -/
  | alreadyBound
  /-- a feed was asked for commands before it had a database -/
  | unbound
  deriving DecidableEq, Repr

/-- The text of an error. -/
def Error.message : Error → String
  | .cannotOpen path reason =>
    "Failed to open compilation database " ++ path ++ ": " ++ reason.text
  | .notAFile path => "Compilation database " ++ path ++ " is not a regular file"
  | .unreadable reason => "IO error while reading compilation database: " ++ reason.text
  | .malformed offset complaint =>
    "Invalid JSON at byte " ++ Decimal.text offset ++ ": " ++ complaint.text
  | .endsEarly offset => "Unexpected end of JSON input at byte " ++ Decimal.text offset
  | .alreadyBound => "Parser is already bound to a compilation database"
  | .unbound => "Parser used before initialize()"

/-- The text of the failure that lies behind an error. -/
def Error.reason : Error → Option String
  | .cannotOpen _ reason | .unreadable reason => some reason.text
  | _ => none

end IndexFeed.Database
