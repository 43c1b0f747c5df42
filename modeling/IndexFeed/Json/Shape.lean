import IndexFeed.Json.Skip
import IndexFeed.Json.Value

/-!
# Shapes

A shape is a type of values together with the two ways to get one: decoding it from text, and
accepting it from a JSON value that has been read before.  Both know the same misfits; decoding
also notes where a misfit lies and on which path.

A record is a shape that objects and arrays can have: an object names its fields, with unknown
keys skipped, and an array gives them in order.
-/

set_option autoImplicit false

namespace IndexFeed.Json

/-! ## Misfits of text -/

/-- Reads the value at the next octet, which is not of the expected kind, as far as a message
needs it: a container is not entered. -/
def Decoder.mismatch {α : Type} (expected : String) : Decoder α :=
  let reject : Decoder Found → Decoder α :=
    Decoder.refine fun found => .error (.kind found expected)
  .settled <| .onHead .endInValue fun b =>
    if b = Octet.letterN then reject (.literal [0x75, 0x6c, 0x6c] .null)
    else if b = Octet.letterT then reject (.literal [0x72, 0x75, 0x65] (.bool true))
    else if b = Octet.letterF then reject (.literal [0x61, 0x6c, 0x73, 0x65] (.bool false))
    else if b = Octet.minus then reject (Decoder.minusNumber.map .ofNumber)
    else if Octet.isDigit b then reject (Decoder.digitNumber.map .ofNumber)
    else if b = Octet.quote then reject (Decoder.quoted.map .string)
    else if b = Octet.openBracket then .fail (·.misfit (.kind .sequence expected))
    else if b = Octet.openBrace then .fail (·.misfit (.kind .map expected))
    else .fail (·.ahead .expectedValue)

/-! ## Shapes -/

/-- How to get a value of a type from text and from a JSON value. -/
structure Shape (α : Type) where
  decode : Decoder α
  accept : Json → Except Misfit α

namespace Shape

variable {α β : Type}

/-- Applies a function to the result. -/
def map (f : α → β) (s : Shape α) : Shape β :=
  ⟨s.decode.map f, fun j => (s.accept j).map f⟩

/-- Applies a function that may find the result unfit. -/
def refine (f : α → Except Misfit β) (s : Shape α) : Shape β :=
  ⟨s.decode.refine f, fun j => (s.accept j).bind f⟩

/-- Any JSON value, in normal form. -/
def any : Shape Json :=
  ⟨(Decoder.value deepest).map normal, fun j => .ok j.normal⟩

/-- A text. -/
def text : Shape String where
  decode := .settled <| .onHead .endInValue fun b =>
    if b = Octet.quote then .quoted else .mismatch "a string"
  accept
    | .string s => .ok s
    | j => .error (.kind (.of j) "a string")

/-- A truth value. -/
def boolean : Shape Bool where
  decode := .settled <| .onHead .endInValue fun b =>
    if b = Octet.letterT then .literal [0x72, 0x75, 0x65] true
    else if b = Octet.letterF then .literal [0x61, 0x6c, 0x73, 0x65] false
    else .mismatch "a boolean"
  accept
    | .bool b => .ok b
    | j => .error (.kind (.of j) "a boolean")

/-- A number that a function finds fit. -/
def number (expected : String) (f : Number → Except Misfit α) : Shape α where
  decode := .settled <| .onHead .endInValue fun b =>
    if b = Octet.minus then Decoder.minusNumber.refine f
    else if Octet.isDigit b then Decoder.digitNumber.refine f
    else .mismatch expected
  accept
    | .number n => f n
    | j => .error (.kind (.of j) expected)

/-- An integer between two bounds, under the name of its range. -/
def integer (expected : String) (least most : Int) : Shape Int :=
  number expected fun
    | .integer i _ _ =>
      if least ≤ i ∧ i ≤ most then .ok i else .error (.range (.integer i) expected)
    | .float x => .error (.kind (.float x) expected)

/-- A natural number of at most so many bits, under the name of its range. -/
def natural (expected : String) (bits : Nat) : Shape Nat :=
  (integer expected 0 (Nat.pow 2 bits - 1)).map Int.toNat

/-- A signed number of so many bits, under the name of its range. -/
def signed (expected : String) (bits : Nat) : Shape Int :=
  let half : Int := Nat.pow 2 (bits - 1)
  integer expected (-half) (half - 1)

/-- A number as binary64; an integer is rounded. -/
def float : Shape Binary64 :=
  number "f64" fun
    | .integer i _ _ =>
      let x := Binary64.ofNat i.natAbs
      .ok (if i < 0 then x.neg else x)
    | .float x => .ok x

/-- A value or null. -/
def optional (s : Shape α) : Shape (Option α) where
  decode := .onHead .endInValue fun b =>
    if b = Octet.letterN then .literal [0x75, 0x6c, 0x6c] none else s.decode.map some
  accept
    | .null => .ok none
    | j => (s.accept j).map some

/-- An array whose items all have one shape. -/
def list (s : Shape α) : Shape (List α) where
  decode := .settled <| .onHead .endInValue fun b =>
    if b = Octet.openBracket then
      (Decoder.arrayOf (fun i items => some ((s.decode.map (· :: items)).under (.item i))) []).map
        fun (_, items) => items.reverse
    else .mismatch "a sequence"
  accept
    | .array items => items.mapM s.accept
    | j => .error (.kind (.of j) "a sequence")

/-- Adds an entry to a list of entries with ascending keys; an entry with that key is replaced. -/
def insertEntry (key : String) (value : α) : List (String × α) → List (String × α)
  | [] => [(key, value)]
  | (k, v) :: r =>
    if key < k then (key, value) :: (k, v) :: r
    else if key = k then (key, value) :: r
    else (k, v) :: insertEntry key value r

/-- An object whose members all have one shape, as entries with ascending keys. -/
def entries (s : Shape α) : Shape (List (String × α)) where
  decode := .settled <| .onHead .endInValue fun b =>
    if b = Octet.openBrace then
      Decoder.objectOf (fun key known =>
        ((s.decode.map fun v => insertEntry key v known).under (.key key)).afterColon) []
    else .mismatch "a map"
  accept
    | .object members =>
      members.foldlM (fun known (key, j) => (s.accept j).map fun v => insertEntry key v known) []
    | j => .error (.kind (.of j) "a map")

end Shape

/-! ## Records -/

/-- A field of a record that is built up in a state `σ`. -/
structure Slot (σ : Type) where
  name : String
  /-- the field has been given -/
  isSet : σ → Bool
  /-- the state with the field -/
  shape : σ → Shape σ

/-- The field that `get` and `set` describe. -/
def Slot.of {σ α : Type} (name : String) (get : σ → Option α) (set : σ → α → σ) (s : Shape α) :
    Slot σ :=
  ⟨name, fun state => (get state).isSome, fun state => s.map (set state)⟩

/-- A shape of objects and arrays with named fields in a fixed order. -/
structure Record (σ α : Type) where
  expected : String
  slots : List (Slot σ)
  start : σ
  /-- the value of an object with the fields gathered -/
  ofFields : σ → Except Misfit α
  /-- the value of an array, with the number of its items that were used -/
  ofItems : Nat → σ → Except Misfit α

namespace Record

variable {σ α : Type}

/-- The value of one member: known keys fill their field once, all others are skipped. -/
def member (r : Record σ α) (key : String) (state : σ) : Decoder σ :=
  match r.slots.find? fun slot => slot.name == key with
  | some slot =>
    if slot.isSet state then .fail (·.misfit (.duplicateField slot.name))
    else ((slot.shape state).decode.under (.key key)).afterColon
  | none => (Decoder.skip.map fun _ => state).afterColon

/-- The next item of an array fills the next field. -/
def item (r : Record σ α) (i : Nat) (state : σ) : Option (Decoder σ) :=
  r.slots[i]?.map fun slot => (slot.shape state).decode.under (.item i)

/-- A record from text. -/
def decode (r : Record σ α) : Decoder α :=
  .settled <| .onHead .endInValue fun b =>
    if b = Octet.openBrace then (Decoder.objectOf r.member r.start).refine r.ofFields
    else if b = Octet.openBracket then
      (Decoder.arrayOf r.item r.start).refine fun (n, state) => r.ofItems n state
    else .mismatch r.expected

/-- Fills fields from the members of an object. -/
def acceptMembers (r : Record σ α) (state : σ) : List (String × Json) → Except Misfit σ
  | [] => .ok state
  | (key, j) :: rest =>
    match r.slots.find? fun slot => slot.name == key with
    | some slot =>
      if slot.isSet state then .error (.duplicateField slot.name)
      else ((slot.shape state).accept j).bind fun state => r.acceptMembers state rest
    | none => r.acceptMembers state rest

/-- Fills fields from the items of an array, as far as there are both. -/
def acceptItems (state : σ) : List (Slot σ) → List Json → Except Misfit σ
  | slot :: slots, j :: rest =>
    ((slot.shape state).accept j).bind fun state => acceptItems state slots rest
  | _, _ => .ok state

/-- A number of items as a message about length names it. -/
def itemsInSequence (n : Nat) : String :=
  if n = 1 then "1 element in sequence" else Decimal.text n ++ " elements in sequence"

/-- A record from a value. -/
def accept (r : Record σ α) : Json → Except Misfit α
  | .object members => (r.acceptMembers r.start members).bind r.ofFields
  | .array items => do
    let state ← acceptItems r.start r.slots items
    let value ← r.ofItems (min items.length r.slots.length) state
    if r.slots.length < items.length then
      .error (.length items.length (itemsInSequence r.slots.length))
    else .ok value
  | j => .error (.kind (.of j) r.expected)

/-- A record as a shape. -/
def shape (r : Record σ α) : Shape α := ⟨r.decode, r.accept⟩

/-- The value of a field that must be there. -/
def need {β : Type} (name : String) : Option β → Except Misfit β
  | some b => .ok b
  | none => .error (.missingField name)

/-- The item with number `i` of an array must be there; `count` items are. -/
def needItem {β : Type} (expected : String) (count : Nat) : Option β → Except Misfit β
  | some b => .ok b
  | none => .error (.length count expected)

end Record

/-! ## Tagged values -/

/-- A value in two parts: the tag that says which variant it is, and the rest, an object or an
array, as it stands in the text. -/
structure Tagged where
  tag : String
  body : Json
  deriving DecidableEq, Inhabited

namespace Tagged

/-- The key of the tag in an object. -/
def key : String := "type"

/-- The name of a known variant. -/
def tagShape (known : List String) : Decoder String :=
  .settled <| .onHead .endInValue fun b =>
    if b = Octet.quote then
      Decoder.quoted.refine fun name =>
        if known.contains name then .ok name else .error (.variant name known)
    else .mismatch "variant identifier"

/-- What has been read of a tagged value: the tag, and the other members or items in reverse. -/
abbrev Partial (α : Type) : Type := Option String × List α

/-- A member of a tagged object. -/
def member (known : List String) (k : String) (p : Partial (String × Json)) :
    Decoder (Partial (String × Json)) :=
  if k = key then
    if p.1.isSome then .fail (·.misfit (.duplicateField key))
    else (((tagShape known).map fun t => (some t, p.2)).under (.key k)).afterColon
  else ((Decoder.value (deepest - 1)).map fun j => (p.1, (k, j) :: p.2)).afterColon

/-- An item of a tagged array: the tag comes first. -/
def item (known : List String) (i : Nat) (p : Partial Json) : Option (Decoder (Partial Json)) :=
  some <|
    if i = 0 then ((tagShape known).map fun t => (some t, p.2)).under (.item 0)
    else (Decoder.value (deepest - 1)).map fun j => (p.1, j :: p.2)

/-- A tagged value from text. -/
def decode (expected : String) (known : List String) : Decoder Tagged :=
  .settled <| .onHead .endInValue fun b =>
    if b = Octet.openBrace then
      (Decoder.objectOf (member known) (none, [])).refine fun (tag, members) =>
        (Record.need key tag).map fun t => ⟨t, .object members.reverse⟩
    else if b = Octet.openBracket then
      (Decoder.arrayOf (item known) (none, [])).refine fun (_, tag, items) =>
        (Record.need key tag).map fun t => ⟨t, .array items.reverse⟩
    else .mismatch expected

end Tagged

end IndexFeed.Json
