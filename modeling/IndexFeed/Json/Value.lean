import IndexFeed.Json.Container
import IndexFeed.Json.NumberText

/-!
# Decoding JSON values

`Decoder.value` reads any value of bounded nesting and keeps the members of objects as they stand.
`Json.parse` reads a whole text, with blanks around the value and nothing else.
-/

set_option autoImplicit false

namespace IndexFeed.Json

/-- The brackets and braces that may be open at once. -/
def deepest : Nat := 127

/-- Where a bracket may not be opened. -/
def Decoder.tooDeep {α : Type} : Decoder α := .fail (·.ahead .nestedTooDeep)

/-- The value at the next octet, given decoders for arrays and objects at their brackets. -/
def Decoder.valueWith (array object : Decoder Json) : Decoder Json :=
  .onHead .endInValue fun b =>
    if b = Octet.letterN then .literal [0x75, 0x6c, 0x6c] .null
    else if b = Octet.letterT then .literal [0x72, 0x75, 0x65] (.bool true)
    else if b = Octet.letterF then .literal [0x61, 0x6c, 0x73, 0x65] (.bool false)
    else if b = Octet.minus then Decoder.minusNumber.map .number
    else if Octet.isDigit b then Decoder.digitNumber.map .number
    else if b = Octet.quote then Decoder.quoted.map .string
    else if b = Octet.openBracket then array
    else if b = Octet.openBrace then object
    else .fail (·.ahead .expectedValue)

/-- An array of values at its bracket. -/
def Decoder.arrayAround (value : Decoder Json) : Decoder Json :=
  (Decoder.arrayOf (fun _ items => some (value.map (· :: items))) []).map
    fun (_, items) => .array items.reverse

/-- The members of an object at its brace. -/
def Decoder.membersAround (value : Decoder Json) : Decoder Object :=
  (Decoder.objectOf (fun key members => (value.map fun j => (key, j) :: members).afterColon) []).map
    List.reverse

/-- A value in which at most so many brackets are open at once. -/
def Decoder.value : Nat → Decoder Json
  | 0 => .valueWith .tooDeep .tooDeep
  | depth + 1 =>
    .valueWith (.arrayAround (Decoder.value depth))
      ((Decoder.membersAround (Decoder.value depth)).map .object)

/-- The members of an object at its brace, in normal form. -/
def Decoder.element : Decoder Object :=
  (Decoder.membersAround (Decoder.value (deepest - 1))).map normalMembers

/-- Nothing but blanks may be left. -/
def finish (c : Cursor) : Except Fault Unit :=
  let c := c.skipBlanks
  if c.rest.isEmpty then .ok () else .error (c.ahead .trailingCharacters)

/-- Reads a whole text. -/
def Decoder.parse {α : Type} (d : Decoder α) (text : Bytes) : Except Error α :=
  match d.run (.start text) with
  | .error f => .error (f.report .whole text)
  | .ok (a, c) =>
    match finish c with
    | .error f => .error (f.report .whole text)
    | .ok () => .ok a

/-- The value that a whole text writes, in normal form. -/
def parse (text : Bytes) : Except Error Json :=
  ((Decoder.value deepest).map normal).parse text

end IndexFeed.Json
