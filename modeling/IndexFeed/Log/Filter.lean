import IndexFeed.Log.Directive

/-!
# Log filters

A filter is a list of directives with commas between them.  An event is logged if a directive
about the span around it lets it through, or else if that directive does which says most closely
what it is about.
-/

set_option autoImplicit false

namespace IndexFeed.Log

/-- A list of directives. -/
abbrev Filter : Type := List Directive

namespace Filter

/-- The filter that logs up to a level. -/
def upTo (l : Level) : Filter := [{ verbosity := l.verbosity }]

/-- Reads a list of directives.  Between two commas there may be nothing at all. -/
def read (s : String) : Except Directive.Fault Filter :=
  ((s.toList.splitOn ',').filter (!·.isEmpty)).mapM Directive.read

/-- The directive that counts for an event by itself. -/
def closest (f : Filter) (e : Event) : Option Directive :=
  (f.filter (·.covers e)).foldl
    (fun best d =>
      match best with
      | some b => if b.outranks d then some b else some d
      | none => some d)
    none

/-- An event is logged.  A filter without directives logs errors alone. -/
def admits (f : Filter) (e : Event) : Bool :=
  let f := if f.isEmpty then upTo .error else f
  f.any (fun d => d.coversSpanOf e && e.level.verbosity ≤ d.verbosity) ||
    match f.closest e with
    | some d => e.level.verbosity ≤ d.verbosity
    | none => false

/-- What is wrong with a text as a filter: the fault of its first bad directive. -/
def fault? (s : String) : Option Directive.Fault :=
  match read s with
  | .ok _ => none
  | .error e => some e

/-- A target with a level is a filter, and a level that is none of the known ones spoils it. -/
example :
    fault? "compdb_ipc=trace,hyper=Off" = none ∧
      fault? "compdb_ipc=lou d" = some .malformed := by
  decide +kernel

/-- Spans with and without fields, a bracket that is not closed, and a field with a group that is
not. -/
example :
    fault? "a[b\x7bc=1\x7d]=5" = none ∧ fault? "[b]" = none ∧ fault? "=[bad" = some .malformed ∧
      fault? "[b\x7bc=(\x7d]" = some .malformed := by
  decide +kernel

/-- Blanks in front of a level on its own do no harm; in front of a level with a target they shift
it, and a wide one is cut into. -/
example :
    fault? " info" = none ∧ fault? " a=info" = some .malformed ∧
      fault? "\u3000a=info" = some .insideCharacter := by
  decide +kernel

/-- The longer target counts, wherever it stands. -/
example :
    let f := (read "compdb_ipc::ipc=off,compdb_ipc=trace").toOption.getD []
    f.admits (.openedQueue "q") = false ∧ f.admits (.droppedEntry "f") = true := by
  decide +kernel

end Filter

end IndexFeed.Log
