import IndexFeed.Octet

/-!
# UTF-8

Characters as octets and back.  `Utf8.scan` reads the longest well-formed beginning of an octet
string, so its leftover says where a text stops being UTF-8.
-/

set_option autoImplicit false

namespace IndexFeed.Utf8

/-- The octets of a list of characters. -/
def encodeChars (cs : List Char) : Bytes := cs.flatMap String.utf8EncodeChar

/-- The octets of a text. -/
def encode (s : String) : Bytes := encodeChars s.toList

/-- A continuation octet, `10xxxxxx`. -/
def isContinuation (b : UInt8) : Bool := b &&& 0xc0 == 0x80

/-- The six payload bits of a continuation octet. -/
def payload (b : UInt8) : Nat := b.toNat % 64

/-- The scalar value `n`, provided that it is at least `least`, the smallest one that may be
written with as many octets: overlong forms and surrogates are no characters. -/
def scalar? (least n : Nat) : Option Char :=
  if h : n.isValidChar then
    if least ≤ n then some (Char.ofNatAux n h) else none
  else none

/-- The characters of the longest well-formed beginning, and the octets after it. -/
def scan : Bytes → List Char × Bytes
  | [] => ([], [])
  | a :: r =>
    if a < 0x80 then
      match scalar? 0 a.toNat with
      | some c => let (cs, rest) := scan r; (c :: cs, rest)
      | none => ([], a :: r)
    else
      match r with
      | [] => ([], [a])
      | b :: r₁ =>
        if !isContinuation b then ([], a :: b :: r₁)
        else if 0xc0 ≤ a && a < 0xe0 then
          match scalar? 0x80 ((a.toNat % 32) * 64 + payload b) with
          | some c => let (cs, rest) := scan r₁; (c :: cs, rest)
          | none => ([], a :: b :: r₁)
        else
          match r₁ with
          | [] => ([], [a, b])
          | c :: r₂ =>
            if !isContinuation c then ([], a :: b :: c :: r₂)
            else if 0xe0 ≤ a && a < 0xf0 then
              match scalar? 0x800 (((a.toNat % 16) * 64 + payload b) * 64 + payload c) with
              | some x => let (cs, rest) := scan r₂; (x :: cs, rest)
              | none => ([], a :: b :: c :: r₂)
            else
              match r₂ with
              | [] => ([], [a, b, c])
              | d :: r₃ =>
                if !isContinuation d then ([], a :: b :: c :: d :: r₃)
                else if 0xf0 ≤ a && a < 0xf8 then
                  match scalar? 0x10000
                      ((((a.toNat % 8) * 64 + payload b) * 64 + payload c) * 64 + payload d) with
                  | some x => let (cs, rest) := scan r₃; (x :: cs, rest)
                  | none => ([], a :: b :: c :: d :: r₃)
                else ([], a :: b :: c :: d :: r₃)

/-- The text that the octets encode, or the number of octets after their longest well-formed
beginning. -/
def decode (bs : Bytes) : Except Nat String :=
  match scan bs with
  | (cs, []) => .ok (String.ofList cs)
  | (_, rest) => .error rest.length

end IndexFeed.Utf8
