import IndexFeed.Command.Draft
import IndexFeed.Json.Shape

/-!
# Compile commands in messages

The shape of a compile command where it is a message or a part of one: a record whose first two
fields must be there.
-/

set_option autoImplicit false

namespace IndexFeed.CompileCommand

/-- The fields of a command read so far. -/
structure Fields where
  directory : Option String := none
  file : Option String := none
  arguments : Option (List String) := none
  command : Option (Option String) := none
  output : Option (Option String) := none
  deriving DecidableEq, Repr, Inhabited

namespace Fields

/-- The command, given its two needed fields. -/
def build (f : Fields) (directory file : String) : CompileCommand :=
  ⟨directory, file, f.arguments.getD [], f.command.getD none, f.output.getD none⟩

/-- The name of the record in messages. -/
def recordName : String := "struct CompileCommand"

/-- The record in messages about length. -/
def recordLength : String := "struct CompileCommand with 5 elements"

end Fields

open Json in
/-- A command as a record. -/
def record : Record Fields CompileCommand where
  expected := Fields.recordName
  slots :=
    [.of "directory" Fields.directory (fun f v => { f with directory := some v }) .text,
     .of "file" Fields.file (fun f v => { f with file := some v }) .text,
     .of "arguments" Fields.arguments (fun f v => { f with arguments := some v }) (.list .text),
     .of "command" Fields.command (fun f v => { f with command := some v }) (.optional .text),
     .of "output" Fields.output (fun f v => { f with output := some v }) (.optional .text)]
  start := {}
  ofFields f := do
    let directory ← Record.need "directory" f.directory
    let file ← Record.need "file" f.file
    pure (f.build directory file)
  ofItems n f := do
    let directory ← Record.needItem Fields.recordLength n f.directory
    let file ← Record.needItem Fields.recordLength n f.file
    pure (f.build directory file)

/-- The shape of a command. -/
def shape : Json.Shape CompileCommand := record.shape

end IndexFeed.CompileCommand
