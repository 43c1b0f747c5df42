import IndexFeed.Command.Basic

/-!
# Drafts of compile commands

A draft gathers the members of one object and notes, in a mask with one bit for each field, which
fields it has seen.  The finished draft is a compile command if `directory` and `file` are there,
the invocation is given in exactly one of its two forms, and no field has a value of a wrong type.
-/

set_option autoImplicit false

namespace IndexFeed

/-- A field of a command object.  Keys that mean nothing here are `unset`. -/
inductive Field where
  | unset
  | directory
  | file
  | arguments
  | command
  | output
  deriving DecidableEq, Repr, Inhabited

namespace Field

/-- The field that a key names. -/
def ofKey (key : String) : Field :=
  if key = "directory" then .directory
  else if key = "file" then .file
  else if key = "arguments" then .arguments
  else if key = "command" then .command
  else if key = "output" then .output
  else .unset

/-- The bit of a field in a mask; none for a key that means nothing. -/
def bit : Field → UInt32
  | .unset => 0
  | .directory => 2
  | .file => 4
  | .arguments => 8
  | .command => 16
  | .output => 32

end Field

/-- A compile command in the making. -/
structure Draft where
  command : CompileCommand := { directory := "", file := "" }
  seen : UInt32 := 0
  malformed : Bool := false
  deriving DecidableEq, Repr, Inhabited

namespace Draft

/-- The fields that every command has. -/
def required : UInt32 := Field.directory.bit ||| Field.file.bit

/-- The two forms of the invocation. -/
def invocation : UInt32 := Field.arguments.bit ||| Field.command.bit

/-- All items as texts, unless one is something else. -/
def texts? : List Json → Option (List String)
  | [] => some []
  | .string s :: r => (texts? r).map (s :: ·)
  | _ :: _ => none

/-- The draft with the value of a field.  A null output is the same as none. -/
def fill (d : Draft) (field : Field) (value : Json) : Draft :=
  match field, value with
  | .unset, _ => d
  | .directory, .string s => { d with command.directory := s }
  | .file, .string s => { d with command.file := s }
  | .command, .string s => { d with command.command := some s }
  | .output, .string s => { d with command.output := some s }
  | .output, .null => { d with command.output := none }
  | .arguments, .array items =>
    match texts? items with
    | some arguments => { d with command.arguments := arguments }
    | none => { d with malformed := true }
  | _, _ => { d with malformed := true }

/-- The draft with one more member. -/
def add (d : Draft) (key : String) (value : Json) : Draft :=
  let field := Field.ofKey key
  { d.fill field value with seen := d.seen ||| field.bit }

/-- The draft of the members of an object. -/
def ofObject (o : Json.Object) : Draft :=
  o.foldl (fun d (key, value) => d.add key value) {}

/-- A finished draft is a command. -/
def isWellFormed (d : Draft) : Bool :=
  let forms := d.seen &&& invocation
  !d.malformed
    && (d.seen &&& required) == required
    && (forms == Field.arguments.bit || forms == Field.command.bit)
    && (forms != Field.arguments.bit || !d.command.arguments.isEmpty)

end Draft

/-- The command that the members of an object describe, if they describe one. -/
def CompileCommand.ofObject? (o : Json.Object) : Option CompileCommand :=
  let d := Draft.ofObject o
  if d.isWellFormed then some d.command else none

end IndexFeed
