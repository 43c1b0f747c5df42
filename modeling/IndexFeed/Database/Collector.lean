import IndexFeed.Command.Draft
import IndexFeed.Database.Reader

/-!
# Collecting compile commands

A collector keeps the well-formed commands among the objects of a database and drops all others
without an error.  It halts the reader behind the object with which it holds as many commands as
it was asked for.
-/

set_option autoImplicit false

namespace IndexFeed.Database

/-- Commands collected in one batch, and what was dropped so far. -/
structure Collector where
  /-- the number of commands that makes a batch full; none for no limit -/
  limit : Option Nat
  commands : List CompileCommand := []
  /-- the `file` texts of the objects dropped so far -/
  dropped : List String := []
  deriving DecidableEq, Repr, Inhabited

namespace Collector

/-- A new batch: no commands yet, and a limit of its own. -/
def begin (c : Collector) (limit : Option Nat) : Collector :=
  { c with limit, commands := [] }

/-- The batch is full. -/
def isFull (c : Collector) : Bool :=
  match c.limit with
  | some n => n ≤ c.commands.length
  | none => false

/-- Takes one object: the command that it describes, or a drop. -/
def take (c : Collector) (o : Json.Object) : Collector :=
  let draft := Draft.ofObject o
  if draft.isWellFormed then { c with commands := c.commands ++ [draft.command] }
  else { c with dropped := c.dropped ++ [draft.command.file] }

/-- Collecting as a handler. -/
def handler : Handler Collector := fun c o =>
  let c := c.take o
  (c, !c.isFull)

end Collector

end IndexFeed.Database
