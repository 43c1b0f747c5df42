import IndexFeed.Json.Value
import IndexFeed.Proofs.Json.Stretch

/-!
# The grammar of JSON text

Which texts write which values, without a decoder: numerals with the number they stand for,
strings piece by piece, and the brackets, braces, commas, colons and blanks around values.
`Written n f p` says that `p` writes the form `f`, a value or what stands between a pair of
brackets, with at most `n` brackets open at once.
-/

set_option autoImplicit false

namespace IndexFeed.Json

open Cursor (Blanks)

/-! ## Numerals -/

/-- At least one digit and nothing else. -/
def Digits (p : Bytes) : Prop := p ≠ [] ∧ ∀ b ∈ p, Octet.isDigit b = true

/-- The exponent of a numeral. -/
structure Exponent where
  letter : UInt8
  /-- the sign, if it is written -/
  sign : Bytes
  digits : Bytes
  deriving DecidableEq, Repr

namespace Exponent

structure WellFormed (x : Exponent) : Prop where
  letter : x.letter = Octet.letterE ∨ x.letter = Octet.capitalE
  sign : x.sign = [] ∨ x.sign = [Octet.plus] ∨ x.sign = [Octet.minus]
  digits : Digits x.digits

/-- The text of an exponent. -/
def text (x : Exponent) : Bytes := x.letter :: (x.sign ++ x.digits)

/-- The number of a significand and a power of ten, raised or lowered by an exponent.  An exponent
beyond 31 bits is out of range, or makes zero. -/
def number? (negative : Bool) (s : Nat) (e : Int) (x : Exponent) : Option Number :=
  let (places, used) := absorb 0x80000000 0 x.digits
  let down := x.sign = [Octet.minus]
  if used < x.digits.length then
    if s ≠ 0 ∧ ¬down then none else some (.signed negative .zero)
  else
    (magnitude? s (if down then e - (places : Int) else e + (places : Int))).map
      (Number.signed negative)

end Exponent

/-- A numeral without its sign: digits, digits behind a point if there is one, an exponent if there
is one. -/
structure Numeral where
  whole : Bytes
  fraction : Option Bytes
  exponent : Option Exponent
  deriving DecidableEq, Repr

namespace Numeral

structure WellFormed (x : Numeral) : Prop where
  whole : Digits x.whole
  /-- no zero stands in front of another digit -/
  lead : x.whole.head? = some Octet.zero → x.whole = [Octet.zero]
  fraction : ∀ f, x.fraction = some f → Digits f
  exponent : ∀ e, x.exponent = some e → e.WellFormed

/-- What follows the digits in front of the point. -/
def scaleText (fraction : Option Bytes) (exponent : Option Exponent) : Bytes :=
  (fraction.elim [] (Octet.point :: ·)) ++ exponent.elim [] Exponent.text

/-- The text of a numeral. -/
def text (x : Numeral) : Bytes := x.whole ++ scaleText x.fraction x.exponent

/-- The number of a significand and a power of ten, with an exponent if there is one. -/
def scaled? (negative : Bool) (s : Nat) (e : Int) : Option Exponent → Option Number
  | some x => x.number? negative s e
  | none => (magnitude? s e).map (Number.signed negative)

/-- The number that a numeral stands for, if it is in range. -/
def number? (negative : Bool) (x : Numeral) : Option Number :=
  let (s, used) := absorb 0x10000000000000000 0 x.whole
  let e : Int := ((x.whole.length - used : Nat) : Int)
  match x.fraction, x.exponent with
  | some f, exponent =>
    let (t, places) := absorb 0x10000000000000000 s f
    scaled? negative t (e - (places : Int)) exponent
  | none, some exponent => exponent.number? negative s e
  | none, none =>
    if used < x.whole.length then scaled? negative s e none else some (.whole negative s)

end Numeral

/-- The texts of numbers. -/
inductive NumberWritten : Number → Bytes → Prop where
  | plain {x : Numeral} {n : Number} : x.WellFormed → x.number? false = some n →
      NumberWritten n x.text
  | negative {x : Numeral} {n : Number} : x.WellFormed → x.number? true = some n →
      NumberWritten n (Octet.minus :: x.text)

/-! ## Strings -/

/-- The texts of one piece of a string, with the octets that it stands for. -/
inductive Piece : Bytes → Bytes → Prop where
  | plain {b : UInt8} : ¬b < 0x20 → b ≠ Octet.quote → b ≠ Octet.backslash → Piece [b] [b]
  | simple {b x : UInt8} : simpleEscape? b = some x → Piece [Octet.backslash, b] [x]
  | numbered {x y z w : UInt8} {n : Nat} : Octet.hexQuad? x y z w = some n →
      isTrailing n = false → isLeading n = false →
      Piece [Octet.backslash, Octet.letterU, x, y, z, w] (scalarOctets n)
  | pair {x y z w x' y' z' w' : UInt8} {m n : Nat} : Octet.hexQuad? x y z w = some m →
      isTrailing m = false → isLeading m = true →
      Octet.hexQuad? x' y' z' w' = some n → isTrailing n = true →
      Piece [Octet.backslash, Octet.letterU, x, y, z, w, Octet.backslash, Octet.letterU, x', y',
        z', w'] (scalarOctets (pairValue m n))

/-- The texts between the quotes of a string, with the octets that they stand for. -/
inductive Pieces : Bytes → Bytes → Prop where
  | nil : Pieces [] []
  | cons {p q bs cs : Bytes} : Piece p bs → Pieces q cs → Pieces (p ++ q) (bs ++ cs)

/-- The texts of a string. -/
def StringWritten (s : String) (p : Bytes) : Prop :=
  ∃ q bs, p = Octet.quote :: (q ++ [Octet.quote]) ∧ Pieces q bs ∧ Utf8.decode bs = .ok s

/-! ## Values -/

/-- What a text can write: a value, or what stands between brackets or braces. -/
inductive Form where
  | value (j : Json)
  | items (js : List Json)
  | members (ms : Object)

/-- The texts of a form in which at most so many brackets and braces are open at once.  A value has
no blanks around it; lists are not empty and have their blanks with them. -/
inductive Written : Nat → Form → Bytes → Prop where
  | null {n : Nat} : Written n (.value .null) [0x6e, 0x75, 0x6c, 0x6c]
  | truth {n : Nat} : Written n (.value (.bool true)) [0x74, 0x72, 0x75, 0x65]
  | falsity {n : Nat} : Written n (.value (.bool false)) [0x66, 0x61, 0x6c, 0x73, 0x65]
  | number {n : Nat} {x : Number} {p : Bytes} : NumberWritten x p →
      Written n (.value (.number x)) p
  | string {n : Nat} {s : String} {p : Bytes} : StringWritten s p →
      Written n (.value (.string s)) p
  | emptyArray {n : Nat} {a : Bytes} : Blanks a →
      Written (n + 1) (.value (.array [])) (Octet.openBracket :: (a ++ [Octet.closeBracket]))
  | array {n : Nat} {js : List Json} {p : Bytes} : Written n (.items js) p →
      Written (n + 1) (.value (.array js)) (Octet.openBracket :: (p ++ [Octet.closeBracket]))
  | emptyObject {n : Nat} {a : Bytes} : Blanks a →
      Written (n + 1) (.value (.object [])) (Octet.openBrace :: (a ++ [Octet.closeBrace]))
  | object {n : Nat} {ms : Object} {p : Bytes} : Written n (.members ms) p →
      Written (n + 1) (.value (.object ms)) (Octet.openBrace :: (p ++ [Octet.closeBrace]))
  | lastItem {n : Nat} {j : Json} {a p b : Bytes} : Blanks a → Written n (.value j) p →
      Blanks b → Written n (.items [j]) (a ++ (p ++ b))
  | item {n : Nat} {j : Json} {js : List Json} {a p b q : Bytes} : Blanks a →
      Written n (.value j) p → Blanks b → Written n (.items js) q →
      Written n (.items (j :: js)) (a ++ (p ++ (b ++ Octet.comma :: q)))
  | lastMember {n : Nat} {key : String} {j : Json} {a k b c p e : Bytes} : Blanks a →
      StringWritten key k → Blanks b → Blanks c → Written n (.value j) p → Blanks e →
      Written n (.members [(key, j)]) (a ++ (k ++ (b ++ Octet.colon :: (c ++ (p ++ e)))))
  | member {n : Nat} {key : String} {j : Json} {ms : Object} {a k b c p e q : Bytes} : Blanks a →
      StringWritten key k → Blanks b → Blanks c → Written n (.value j) p → Blanks e →
      Written n (.members ms) q →
      Written n (.members ((key, j) :: ms))
        (a ++ (k ++ (b ++ Octet.colon :: (c ++ (p ++ (e ++ Octet.comma :: q))))))

/-- Room for more brackets does no harm. -/
theorem Written.mono {m n : Nat} {f : Form} {p : Bytes} (h : Written n f p) (hmn : n ≤ m) :
    Written m f p := by
  induction h generalizing m with
  | null => exact .null
  | truth => exact .truth
  | falsity => exact .falsity
  | number hx => exact .number hx
  | string hs => exact .string hs
  | emptyArray ha =>
    obtain ⟨k, rfl⟩ := Nat.exists_eq_add_of_lt hmn
    exact .emptyArray ha
  | array _ ih =>
    obtain ⟨k, rfl⟩ := Nat.exists_eq_add_of_lt hmn
    exact .array (ih (Nat.le_add_right ..))
  | emptyObject ha =>
    obtain ⟨k, rfl⟩ := Nat.exists_eq_add_of_lt hmn
    exact .emptyObject ha
  | object _ ih =>
    obtain ⟨k, rfl⟩ := Nat.exists_eq_add_of_lt hmn
    exact .object (ih (Nat.le_add_right ..))
  | lastItem ha _ hb ih => exact .lastItem ha (ih hmn) hb
  | item ha _ hb _ ih ih' => exact .item ha (ih hmn) hb (ih' hmn)
  | lastMember ha hk hb hc _ he ih => exact .lastMember ha hk hb hc (ih hmn) he
  | member ha hk hb hc _ he _ ih ih' => exact .member ha hk hb hc (ih hmn) he (ih' hmn)

end IndexFeed.Json
