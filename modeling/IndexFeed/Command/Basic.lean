import IndexFeed.Text.Blank
import IndexFeed.Text.ShellWords
import IndexFeed.Json.Basic

/-!
# Compile commands

One entry of a compilation database: how one source file is compiled.  The invocation is a list of
arguments or one shell-quoted text.
-/

set_option autoImplicit false

namespace IndexFeed

/-- One compiler invocation. -/
structure CompileCommand where
  /-- working directory of the compiler -/
  directory : String
  /-- main source file -/
  file : String
  /-- the invocation in words; empty where `command` is used -/
  arguments : List String := []
  /-- the invocation as a shell-quoted text -/
  command : Option String := none
  /-- where the output goes -/
  output : Option String := none
  deriving DecidableEq, Repr, Inhabited

namespace CompileCommand

/-- One path seen from another: an absolute path stands alone, any other follows the first one
with a slash between them. -/
def joinPath (base path : List Char) : List Char :=
  if path.head? = some '/' then path
  else if base.isEmpty || base.getLast? = some '/' then base ++ path
  else base ++ '/' :: path

/-- The source file, seen from the working directory. -/
def filePath (c : CompileCommand) : String :=
  String.ofList (joinPath c.directory.toList c.file.toList)

/-- The words of a shell-quoted text, or its plain words if its quotes do not match. -/
def wordsOf (command : String) : List String :=
  (ShellWords.split? command).getD (Blank.words command)

/-- The invocation in words: the arguments if there are any, else the words of the text. -/
def words (c : CompileCommand) : List String :=
  if c.arguments.isEmpty then (c.command.map wordsOf).getD [] else c.arguments

/-- The members that describe a command: what is empty or absent is left out. -/
def members (c : CompileCommand) : Json.Object :=
  [("directory", .string c.directory), ("file", .string c.file)]
    ++ (if c.arguments.isEmpty then []
        else [("arguments", .array (c.arguments.map Json.string))])
    ++ (c.command.map fun s => ("command", Json.string s)).toList
    ++ (c.output.map fun s => ("output", Json.string s)).toList

/-- A command as a JSON value. -/
def toJson (c : CompileCommand) : Json := .object c.members

end CompileCommand

end IndexFeed
