import IndexFeed.Octet
import IndexFeed.Number.Shortest

/-!
# JSON values

The values of JSON text.  Numbers are integers of 64 bits, with or without a sign, or finite
binary64 numbers, and the two sorts are different values: `1` is not `1.0`.

An object is a list of members.  `Json.normal` gives each object its normal form: keys ascending,
and of several members with one key only the last.  `Json.chars` is the compact text.
-/

set_option autoImplicit false

namespace IndexFeed

/-- A number: an integer from `-2 ^ 63` on and below `2 ^ 64`, or a finite binary64 number. -/
inductive Json.Number where
  | integer (value : Int) (least : -0x8000000000000000 ≤ value)
      (most : value < 0x10000000000000000)
  | float (value : Binary64)
  deriving DecidableEq, Repr

/-- A JSON value.  The members of an object stand in the order of the text. -/
inductive Json where
  | null
  | bool (value : Bool)
  | number (value : Json.Number)
  | string (value : String)
  | array (items : List Json)
  | object (members : List (String × Json))
  deriving Inhabited

namespace Json

/-- The members of an object. -/
abbrev Object : Type := List (String × Json)

/-! ## Equality -/

mutual

/-- Equality of values, decided. -/
def decEq : (x y : Json) → Decidable (x = y)
  | .null, .null => isTrue rfl
  | .bool a, .bool b => decidable_of_iff (a = b) (by simp)
  | .number a, .number b => decidable_of_iff (a = b) (by simp)
  | .string a, .string b => decidable_of_iff (a = b) (by simp)
  | .array a, .array b =>
    match decEqItems a b with
    | isTrue h => isTrue (by rw [h])
    | isFalse h => isFalse (by simpa using h)
  | .object a, .object b =>
    match decEqMembers a b with
    | isTrue h => isTrue (by rw [h])
    | isFalse h => isFalse (by simpa using h)
  | .null, .bool _ | .null, .number _ | .null, .string _ | .null, .array _ | .null, .object _
  | .bool _, .null | .bool _, .number _ | .bool _, .string _ | .bool _, .array _
  | .bool _, .object _
  | .number _, .null | .number _, .bool _ | .number _, .string _ | .number _, .array _
  | .number _, .object _
  | .string _, .null | .string _, .bool _ | .string _, .number _ | .string _, .array _
  | .string _, .object _
  | .array _, .null | .array _, .bool _ | .array _, .number _ | .array _, .string _
  | .array _, .object _
  | .object _, .null | .object _, .bool _ | .object _, .number _ | .object _, .string _
  | .object _, .array _ => isFalse (by simp)

/-- Equality of lists of values, decided. -/
def decEqItems : (x y : List Json) → Decidable (x = y)
  | [], [] => isTrue rfl
  | [], _ :: _ | _ :: _, [] => isFalse (by simp)
  | a :: x, b :: y =>
    match decEq a b, decEqItems x y with
    | isTrue h, isTrue k => isTrue (by rw [h, k])
    | isFalse h, _ => isFalse (by simp [h])
    | _, isFalse k => isFalse (by simp [k])

/-- Equality of lists of members, decided. -/
def decEqMembers : (x y : List (String × Json)) → Decidable (x = y)
  | [], [] => isTrue rfl
  | [], _ :: _ | _ :: _, [] => isFalse (by simp)
  | (j, a) :: x, (k, b) :: y =>
    if hk : j = k then
      match decEq a b, decEqMembers x y with
      | isTrue h, isTrue l => isTrue (by rw [hk, h, l])
      | isFalse h, _ => isFalse (by simp [h])
      | _, isFalse l => isFalse (by simp [l])
    else isFalse (by simp [hk])

end

instance : DecidableEq Json := decEq

/-! ## Numbers -/

/-- A natural number of at most 64 bits; larger ones are cut off at the top. -/
def nat (n : Nat) : Json :=
  let n := min n 0xffffffffffffffff
  .number (.integer (n : Int) (by omega) (by omega))

/-! ## Objects -/

/-- The value of the first member with a key. -/
def Object.get? (o : Object) (key : String) : Option Json := o.lookup key

/-- Adds a member in front of the first larger key, unless the key is present. -/
def Object.insertNew (key : String) (value : Json) : Object → Object
  | [] => [(key, value)]
  | (k, v) :: r =>
    if key < k then (key, value) :: (k, v) :: r
    else if key = k then (k, v) :: r
    else (k, v) :: Object.insertNew key value r

mutual

/-- The value with every object in normal form: keys ascending, the last of equal keys kept. -/
def normal : Json → Json
  | .null => .null
  | .bool b => .bool b
  | .number n => .number n
  | .string s => .string s
  | .array items => .array (normalItems items)
  | .object members => .object (normalMembers members)

/-- The normal forms of a list of values. -/
def normalItems : List Json → List Json
  | [] => []
  | j :: r => normal j :: normalItems r

/-- The normal form of the members of an object. -/
def normalMembers : List (String × Json) → List (String × Json)
  | [] => []
  | (k, j) :: r => Object.insertNew k (normal j) (normalMembers r)

end

/-! ## Compact text -/

/-- One character inside a string. -/
def escapedChar (c : Char) : List Char :=
  if c = '\"' then ['\\', '\"']
  else if c = '\\' then ['\\', '\\']
  else if c = Char.ofNat 0x08 then ['\\', 'b']
  else if c = Char.ofNat 0x0c then ['\\', 'f']
  else if c = '\n' then ['\\', 'n']
  else if c = '\r' then ['\\', 'r']
  else if c = '\t' then ['\\', 't']
  else if c.toNat < 0x20 then
    ['\\', 'u', '0', '0', Octet.hexDigit (c.toNat / 16), Octet.hexDigit (c.toNat % 16)]
  else [c]

/-- A string with its quotes. -/
def stringChars (s : String) : List Char :=
  '\"' :: (s.toList.flatMap escapedChar ++ ['\"'])

/-- An integer. -/
def integerChars (i : Int) : List Char :=
  if i < 0 then '-' :: Decimal.chars i.natAbs else Decimal.chars i.natAbs

/-- A number. -/
def Number.chars : Number → List Char
  | .integer i _ _ => integerChars i
  | .float x => x.chars

mutual

/-- The compact text of a value. -/
def chars : Json → List Char
  | .null => ['n', 'u', 'l', 'l']
  | .bool true => ['t', 'r', 'u', 'e']
  | .bool false => ['f', 'a', 'l', 's', 'e']
  | .number n => n.chars
  | .string s => stringChars s
  | .array items => '[' :: (itemChars items ++ [']'])
  | .object members => '\x7b' :: (memberChars members ++ ['\x7d'])

/-- The items of an array, with commas between them. -/
def itemChars : List Json → List Char
  | [] => []
  | [j] => chars j
  | j :: k :: r => chars j ++ ',' :: itemChars (k :: r)

/-- The members of an object, with commas between them. -/
def memberChars : List (String × Json) → List Char
  | [] => []
  | [(k, j)] => stringChars k ++ ':' :: chars j
  | (k, j) :: m :: r => stringChars k ++ ':' :: (chars j ++ ',' :: memberChars (m :: r))

end

/-- The compact text of a value. -/
def text (j : Json) : String := String.ofList j.chars

/-! ## Indented text -/

/-- A new line with two blanks for each level. -/
def newLine (level : Nat) : List Char := '\n' :: List.replicate (2 * level) ' '

mutual

/-- The text of a value over several lines, two blanks for each level. -/
def indentedChars (level : Nat) : Json → List Char
  | .array [] => ['[', ']']
  | .object [] => ['\x7b', '\x7d']
  | .array items => '[' :: (indentedItems (level + 1) items ++ newLine level ++ [']'])
  | .object members =>
    '\x7b' :: (indentedMembers (level + 1) members ++ newLine level ++ ['\x7d'])
  | .null => ['n', 'u', 'l', 'l']
  | .bool true => ['t', 'r', 'u', 'e']
  | .bool false => ['f', 'a', 'l', 's', 'e']
  | .number n => n.chars
  | .string s => stringChars s

/-- The items of an array, each on a line of its own. -/
def indentedItems (level : Nat) : List Json → List Char
  | [] => []
  | [j] => newLine level ++ indentedChars level j
  | j :: k :: r =>
    newLine level ++ indentedChars level j ++ ',' :: indentedItems level (k :: r)

/-- The members of an object, each on a line of its own. -/
def indentedMembers (level : Nat) : List (String × Json) → List Char
  | [] => []
  | [(k, j)] => newLine level ++ stringChars k ++ ':' :: ' ' :: indentedChars level j
  | (k, j) :: m :: r =>
    newLine level ++ stringChars k ++ ':' :: ' ' :: (indentedChars level j ++
      ',' :: indentedMembers level (m :: r))

end

/-- The text of a value over several lines. -/
def indented (j : Json) : String := String.ofList (indentedChars 0 j)

end Json

end IndexFeed
