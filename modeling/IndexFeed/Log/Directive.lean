import IndexFeed.Event
import IndexFeed.Log.Pattern.Reader
import IndexFeed.Text.Decimal
import IndexFeed.Text.Keyword

/-!
# Log directives

A directive says how much is logged of what.  It is a level, a target, or a target and a level with
an equals sign between them; behind the target the name and a field of a span may stand in brackets.

A directive is read without the blanks at its ends.  The places that are found in it so are
numbers of octets, and they are looked up in the directive as it was written: blanks in front make
every piece start and end too early.  Where such a place lies inside a character, nothing can be
cut off there.
-/

set_option autoImplicit false

namespace IndexFeed.Log

/-- What a directive asks of a field. -/
structure FieldTest where
  name : String
  /-- a value is asked for, too -/
  hasValue : Bool
  deriving DecidableEq, Repr, Inhabited

/-- One directive of a filter. -/
structure Directive where
  /-- what the targets that it is about start with -/
  target : Option String := none
  /-- the name of the spans that it is about -/
  span : Option String := none
  field : Option FieldTest := none
  /-- how much is logged -/
  verbosity : Nat := Level.trace.verbosity
  deriving DecidableEq, Repr, Inhabited

namespace Directive

/-- Why a text is not taken as a directive. -/
inductive Fault where
  /-- it has not the form of one -/
  | malformed
  /-- a piece of it would start or end inside a character -/
  | insideCharacter
  deriving DecidableEq, Repr

/-! ## Parts of a directive -/

/-- The keywords for how much is logged, least first. -/
def keywords : List String := ["off", "error", "warn", "info", "debug", "trace"]

/-- How much is logged at a level, which is written as a number or as a keyword. -/
def verbosity? (cs : List Char) : Option Nat :=
  let s := String.ofList cs
  Decimal.nat? keywords.length s <|> keywords.idxOf? (Keyword.lower s)

/-- A character that a target or a level may start with. -/
def startsTarget (c : Char) : Bool :=
  c == '-' || c == ':' || c == '_' || Letter.isLetterOrNumber c

/-- Reads a condition on a field: its name, or its name and its value with an equals sign between
them.  The value is a number or a pattern.  A further equals sign and what follows it do not
count. -/
def field? (cs : List Char) : Option FieldTest :=
  let name := String.ofList (cs.takeWhile (· != '='))
  match cs.dropWhile (· != '=') with
  | [] => if cs.isEmpty then none else some ⟨name, false⟩
  | _ :: behind =>
    let value := behind.takeWhile (· != '=')
    if Decimal.isNumber value || Pattern.isPattern value then some ⟨name, true⟩ else none

/-! ## Cutting -/

/-- A text from a number of octets on. -/
def dropOctets : Nat → List Char → Except Fault (List Char)
  | 0, cs => .ok cs
  | _ + 1, [] => .ok []
  | n + 1, c :: cs =>
    if c.utf8Size ≤ n + 1 then dropOctets (n + 1 - c.utf8Size) cs else .error .insideCharacter

/-- The first characters of a text, which take up a number of octets. -/
def takeOctets : Nat → List Char → Except Fault (List Char)
  | 0, _ => .ok []
  | _ + 1, [] => .ok []
  | n + 1, c :: cs =>
    if c.utf8Size ≤ n + 1 then (takeOctets (n + 1 - c.utf8Size) cs).map (c :: ·)
    else .error .insideCharacter

/-- The piece of a text between two places. -/
def piece (first last : Nat) (written : List Char) : Except Fault (List Char) :=
  (dropOctets first written).bind (takeOctets (last - first))

/-! ## Reading -/

/-- Where the reader of a directive stands.  A place is a number of octets. -/
inductive Stand where
  | start
  /-- in a target, or in a level without one -/
  | target
  /-- in the name of a span that starts at a place -/
  | span (first : Nat)
  /-- in a field that starts at a place -/
  | field (first : Nat)
  | behindField
  | behindSpan
  /-- in a level that starts at a place -/
  | level (first : Nat)
  deriving DecidableEq, Repr, Inhabited

/-- What is read of a directive behind a character, itself at the place `i`. -/
def step (written : List Char) (i : Nat) (c : Char) (d : Directive) :
    Stand → Except Fault (Stand × Directive)
  | .start =>
    if c = '[' then .ok (.span (i + 1), d)
    else if startsTarget c then .ok (.target, d)
    else .error .malformed
  | .target =>
    if c = '=' ∨ c = '[' then do
      let target := String.ofList (← piece 0 i written)
      .ok (if c = '=' then .level (i + 1) else .span (i + 1), { d with target := some target })
    else .ok (.target, d)
  | .span first =>
    if c = ']' then do
      let span := String.ofList (← piece first i written)
      .ok (.behindSpan, { d with span := some span })
    else if c = '\x7b' then do
      let span := String.ofList (← piece first i written)
      .ok (.field (i + 1), { d with span := if span.isEmpty then none else some span })
    else .ok (.span first, d)
  | .field first =>
    if c = '\x7d' then do
      match field? (← piece first i written) with
      | some field => .ok (.behindField, { d with field := some field })
      | none => .error .malformed
    else .ok (.field first, d)
  | .behindField => if c = ']' then .ok (.behindSpan, d) else .error .malformed
  | .behindSpan => if c = '=' then .ok (.level (i + 1), d) else .error .malformed
  | .level first => .ok (.level first, d)

/-- What is read of a directive to its end, from the place `i` on. -/
def run (written : List Char) :
    (i : Nat) → Stand × Directive → List Char → Except Fault (Stand × Directive)
  | _, found, [] => .ok found
  | i, (s, d), c :: cs => do run written (i + c.utf8Size) (← step written i c d s) cs

/-- The directive that ends where the reader stands.  Without a level everything is logged. -/
def finish (written : List Char) (d : Directive) : Stand → Except Fault Directive
  | .target =>
    match verbosity? written with
    | some verbosity => .ok { d with verbosity }
    | none => .ok { d with target := some (String.ofList written) }
  | .behindSpan => .ok d
  | .level first => do
    match ← dropOctets first written with
    | [] => .ok d
    | level =>
      match verbosity? level with
      | some verbosity => .ok { d with verbosity }
      | none => .error .malformed
  | _ => .error .malformed

/-- Reads a directive. -/
def read (written : List Char) : Except Fault Directive := do
  let (s, d) ← run written 0 (.start, {}) (Blank.trim (String.ofList written)).toList
  finish written d s

/-! ## Meaning -/

/-- A target is one of those that the directive is about. -/
def concerns (d : Directive) (target : String) : Bool :=
  match d.target with
  | some start => start.toList.isPrefixOf target.toList
  | none => true

/-- The directive is about an event by itself. -/
def covers (d : Directive) (e : Event) : Bool :=
  d.span.isNone && d.concerns e.target &&
    match d.field with
    | some f => !f.hasValue && (f.name == "message" || (e.fields.lookup f.name).isSome)
    | none => true

/-- The directive is about the span that an event happens in.  Spans have no fields. -/
def coversSpanOf (d : Directive) (e : Event) : Bool :=
  match e.span?, d.span with
  | some (target, name), some span => span == name && d.concerns target && d.field.isNone
  | _, _ => false

/-- How closely a directive says what it is about: the length of its target (none is the least) and
the number of its fields. -/
def closeness (d : Directive) : Nat × Nat :=
  (match d.target with
    | some target => target.length + 1
    | none => 0,
   if d.field.isSome then 1 else 0)

/-- Of two directives that cover one event, the first is the one that counts.  Where both are
equally close, their fields are in the order of the names; of equal ones the later counts. -/
def outranks (a b : Directive) : Bool :=
  let (t, f) := a.closeness
  let (t', f') := b.closeness
  t' < t || t == t' && (f' < f || f == f' &&
    match a.field, b.field with
    | some x, some y => y.name < x.name
    | _, _ => false)

end Directive

end IndexFeed.Log
