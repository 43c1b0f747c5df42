import IndexFeed.Text.Quoted
import IndexFeed.Json.Basic
import IndexFeed.Json.Cursor

/-!
# Faults of JSON text

Why a text cannot be read as JSON, or as JSON of an expected shape, and where.

A `Fault` is what a decoder raises: its cause, the place, the way to it inside the value, and the
point where reading stopped.  `Fault.report` turns it into an `Error` that names line and column.
-/

set_option autoImplicit false

namespace IndexFeed.Json

/-! ## Shapes -/

/-- A value as a message about shapes names it: containers only by kind. -/
inductive Found where
  | null
  | bool (value : Bool)
  | integer (value : Int)
  | float (value : Binary64)
  | string (value : String)
  | sequence
  | map
  deriving DecidableEq, Repr

/-- How a value is named in a message. -/
def Found.text : Found → String
  | .null => "null"
  | .bool true => "boolean `true`"
  | .bool false => "boolean `false`"
  | .integer i => "integer `" ++ Decimal.signed i ++ "`"
  | .float x => "floating point `" ++ String.ofList x.chars ++ "`"
  | .string s => "string " ++ Quoted.text s
  | .sequence => "sequence"
  | .map => "map"

/-- A number as a message names it. -/
def Found.ofNumber : Number → Found
  | .integer i _ _ => .integer i
  | .float x => .float x

/-- A value as a message names it. -/
def Found.of : Json → Found
  | .null => .null
  | .bool b => .bool b
  | .number n => .ofNumber n
  | .string s => .string s
  | .array _ => .sequence
  | .object _ => .map

/-- Why a well-formed value does not fit an expected shape. -/
inductive Misfit where
  /-- a value of another kind -/
  | kind (found : Found) (expected : String)
  /-- a value of the right kind outside its range -/
  | range (found : Found) (expected : String)
  /-- an array with the wrong number of items -/
  | length (count : Nat) (expected : String)
  | missingField (name : String)
  | duplicateField (name : String)
  /-- a tag that names none of the known variants -/
  | variant (name : String) (known : List String)
  /-- a span of seconds below zero -/
  | negativeSpan
  /-- a span of seconds beyond 64 bits -/
  | hugeSpan
  deriving DecidableEq, Repr

/-- A list of names as a message shows it. -/
def Misfit.oneOf : List String → String
  | [] => "there are no variants"
  | [a] => "expected `" ++ a ++ "`"
  | [a, b] => "expected `" ++ a ++ "` or `" ++ b ++ "`"
  | names => "expected one of " ++ ", ".intercalate (names.map fun n => "`" ++ n ++ "`")

/-- The text of a misfit. -/
def Misfit.text : Misfit → String
  | .kind found expected => "invalid type: " ++ found.text ++ ", expected " ++ expected
  | .range found expected => "invalid value: " ++ found.text ++ ", expected " ++ expected
  | .length n expected => "invalid length " ++ Decimal.text n ++ ", expected " ++ expected
  | .missingField name => "missing field `" ++ name ++ "`"
  | .duplicateField name => "duplicate field `" ++ name ++ "`"
  | .variant name known => "unknown variant `" ++ name ++ "`, " ++ oneOf known
  | .negativeSpan => "cannot convert float seconds to Duration: value is negative"
  | .hugeSpan => "cannot convert float seconds to Duration: value is either too big or NaN"

/-! ## Causes -/

/-- What is wrong with a text. -/
inductive Cause where
  | endInValue
  | endInList
  | endInObject
  | endInString
  | expectedIdent
  | expectedValue
  | expectedColon
  | expectedListCommaOrEnd
  | expectedObjectCommaOrEnd
  | keyNotString
  | trailingComma
  | trailingCharacters
  | invalidNumber
  | numberOutOfRange
  | controlCharacter
  | invalidEscape
  /-- the second half of a surrogate pair without a first half, or something else in its place -/
  | loneSurrogate
  /-- the first half of a surrogate pair with no escape after it -/
  | brokenPair
  | invalidCodePoint
  | nestedTooDeep
  | misfit (misfit : Misfit)
  deriving DecidableEq, Repr

/-- The three sorts of faults: the text ends too early, it is no JSON, it has the wrong shape. -/
inductive Category where
  | early
  | malformed
  | misshapen
  deriving DecidableEq, Repr

/-- The sort of a cause. -/
def Cause.category : Cause → Category
  | .endInValue | .endInList | .endInObject | .endInString => .early
  | .misfit _ => .misshapen
  | _ => .malformed

/-- The text of a cause. -/
def Cause.text : Cause → String
  | .endInValue => "EOF while parsing a value"
  | .endInList => "EOF while parsing a list"
  | .endInObject => "EOF while parsing an object"
  | .endInString => "EOF while parsing a string"
  | .expectedIdent => "expected ident"
  | .expectedValue => "expected value"
  | .expectedColon => "expected `:`"
  | .expectedListCommaOrEnd => "expected `,` or `]`"
  | .expectedObjectCommaOrEnd => "expected `,` or `\x7d`"
  | .keyNotString => "key must be a string"
  | .trailingComma => "trailing comma"
  | .trailingCharacters => "trailing characters"
  | .invalidNumber => "invalid number"
  | .numberOutOfRange => "number out of range"
  | .controlCharacter => "control character (\\u0000-\\u001F) found while parsing a string"
  | .invalidEscape => "invalid escape"
  | .loneSurrogate => "lone leading surrogate in hex escape"
  | .brokenPair => "unexpected end of hex escape"
  | .invalidCodePoint => "invalid unicode code point"
  | .nestedTooDeep => "recursion limit exceeded"
  | .misfit m => m.text

/-! ## Places -/

/-- Which octet a fault is charged to. -/
inductive Blame where
  /-- the next octet, which was looked at and not taken -/
  | ahead
  /-- the last octet taken, or the one the given number of columns before it -/
  | behind (back : Nat)
  /-- the last octet taken, though the next one was looked at -/
  | besideLook
  deriving DecidableEq, Repr, Inhabited

/-- The place of a fault: where the decoder stood, and which octet is meant. -/
structure Site where
  cursor : Cursor
  blame : Blame
  deriving DecidableEq, Repr, Inhabited

/-- A step from a value to a part of it. -/
inductive Segment where
  | key (name : String)
  | item (index : Nat)
  deriving DecidableEq, Repr

/-- Why reading failed.  A misfit has no place of its own at first: it gets the place where the
value it belongs to has been read. -/
structure Fault where
  cause : Cause
  site : Option Site
  path : List Segment
  /-- where reading stopped -/
  stop : Cursor
  /-- whether the octet at the stop was looked at -/
  looked : Bool
  deriving DecidableEq, Repr

/-! ## Reports -/

/-- A line and a column; lines start at one, columns count octets. -/
structure Position where
  line : Nat
  column : Nat
  deriving DecidableEq, Repr

/-- The position behind some text. -/
def Position.behind (text : Bytes) : Position :=
  ⟨1 + text.count Octet.lineFeed, (text.reverse.takeWhile (· != Octet.lineFeed)).length⟩

/-- How octets reach the decoder, which decides what a position counts: a whole text is indexed
and an octet only looked at counts where a fault is charged to it; from a stream an octet that
was looked at has been taken. -/
inductive Supply where
  | whole
  | stream
  deriving DecidableEq, Repr

/-- The number of octets in front of the position of a site. -/
def Site.count (site : Site) : Supply → Nat
  | .whole => match site.blame with
    | .ahead => site.cursor.index + 1
    | _ => site.cursor.index
  | .stream => match site.blame with
    | .behind _ => site.cursor.index
    | _ => site.cursor.index + 1

/-- The position of a site in a text. -/
def Site.position (site : Site) (supply : Supply) (text : Bytes) : Position :=
  let p := Position.behind (text.take (site.count supply))
  match site.blame with
  | .behind back => ⟨p.line, p.column - back⟩
  | _ => p

/-- A reported fault. -/
structure Error where
  cause : Cause
  position : Option Position
  path : List Segment
  deriving DecidableEq, Repr

/-- What a fault in a text is reported as. -/
def Fault.report (f : Fault) (supply : Supply) (text : Bytes) : Error :=
  ⟨f.cause, f.site.map fun s => s.position supply text, f.path⟩

/-- The sort of an error. -/
def Error.category (e : Error) : Category := e.cause.category

/-- The text of an error, with its position if it has one. -/
def Error.message (e : Error) : String :=
  match e.position with
  | none => e.cause.text
  | some p =>
    e.cause.text ++ " at line " ++ Decimal.text p.line ++ " column " ++ Decimal.text p.column

/-- The steps of a path: keys with points between them, item numbers in brackets. -/
def pathText : List Segment → String
  | [] => ""
  | [.key name] => name
  | [.item i] => "[" ++ Decimal.text i ++ "]"
  | .key name :: .key next :: r => name ++ "." ++ pathText (.key next :: r)
  | .key name :: .item i :: r => name ++ pathText (.item i :: r)
  | .item i :: .key next :: r => "[" ++ Decimal.text i ++ "]." ++ pathText (.key next :: r)
  | .item i :: .item j :: r => "[" ++ Decimal.text i ++ "]" ++ pathText (.item j :: r)

end IndexFeed.Json
