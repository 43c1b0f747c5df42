import IndexFeed.Log.Pattern.Flags

/-!
# Escapes of a pattern

What a backslash and the characters behind it stand for.  Back references and classes by Unicode
property are refused, and so is what would need a table of Unicode: there is none.
-/

set_option autoImplicit false

namespace IndexFeed.Log.Pattern

/-- What an escape stands for. -/
inductive Escape where
  | char (c : Char)
  /-- digits, blanks or the characters of words -/
  | shorthand
  /-- a place that takes up no characters -/
  | place
  deriving DecidableEq, Repr

namespace Escape

/-! ## Characters by number -/

/-- The value of a hexadecimal digit. -/
def hexValue? (c : Char) : Option Nat :=
  if c.isDigit then some (c.toNat - 0x30)
  else if 'a' ≤ c ∧ c ≤ 'f' then some (c.toNat - 0x57)
  else if 'A' ≤ c ∧ c ≤ 'F' then some (c.toNat - 0x37)
  else none

/-- Reads some hexadecimal digits behind those that have the value `n`. -/
def hexDigits (f : Flags) : (digits : Nat) → (n : Nat) → List Char → Option (Nat × List Char)
  | 0, n, cs => some (n, cs)
  | _ + 1, _, [] => none
  | k + 1, n, c :: cs =>
    match hexValue? c with
    | some v => hexDigits f k (n * 0x10 + v) (f.skip cs)
    | none => none

/-- Reads the number of a character. -/
def numbered (f : Flags) (digits : Nat) (cs : List Char) : Option (Escape × List Char) :=
  match hexDigits f digits 0 (f.skip cs) with
  | some (n, rest) => if n.isValidChar then some (.char (Char.ofNat n), rest) else none
  | none => none

/-! ## All escapes -/

/-- The characters that letters stand for. -/
def controls : List (Char × Char) :=
  [('a', '\x07'), ('f', '\x0c'), ('n', '\n'), ('r', '\r'), ('t', '\t'), ('v', '\x0b')]

/-- What a single character behind a backslash stands for.  The edges of words and the shorthands
are known in octets only. -/
def ofChar? (f : Flags) (c : Char) : Option Escape :=
  if ['d', 's', 'w'].contains c then if f.unicode then none else some .shorthand
  else if ['b', 'B', '<', '>'].contains c then if f.unicode then none else some .place
  else if ['A', 'z'].contains c then some .place
  else if c.isAlphanum || 0x80 ≤ c.toNat then (controls.lookup c).map .char
  else some (.char c)

/-- Reads what stands behind a backslash.  An octet by number is a character only in ASCII. -/
def read (f : Flags) : List Char → Option (Escape × List Char)
  | [] => none
  | 'x' :: cs =>
    (numbered f 2 cs).filter fun (e, _) =>
      f.unicode || match e with
        | .char c => c.toNat < 0x80
        | _ => true
  | 'u' :: cs => numbered f 4 cs
  | 'U' :: cs => numbered f 8 cs
  | c :: cs => (ofChar? f c).map fun e => (e, cs)

/-- A character by number, a character that a letter stands for, and a back reference. -/
example :
    read {} "u00e9t".toList = some (.char (Char.ofNat 0xe9), ['t']) ∧
      read {} ['t'] = some (.char '\t', []) ∧ read {} ['1'] = none := by
  decide +kernel

/-! ## Laws -/

/-- Behind hexadecimal digits there is an end of the text. -/
theorem hexDigits_suffix {f : Flags} {k n : Nat} {cs : List Char} {m : Nat} {rest : List Char}
    (h : hexDigits f k n cs = some (m, rest)) : rest <:+ cs := by
  induction k generalizing n cs with
  | zero => cases h; exact List.suffix_refl _
  | succ k ih =>
    cases cs with
    | nil => cases h
    | cons c cs =>
      simp only [hexDigits] at h
      split at h
      · exact (ih h).trans ((f.skip_suffix cs).trans (List.suffix_cons c cs))
      · cases h

/-- Behind the number of a character there is an end of the text. -/
theorem numbered_suffix {f : Flags} {k : Nat} {cs : List Char} {e : Escape} {rest : List Char}
    (h : numbered f k cs = some (e, rest)) : rest <:+ cs := by
  simp only [numbered] at h
  split at h
  · rename_i hd
    split at h
    · cases h; exact (hexDigits_suffix hd).trans (f.skip_suffix cs)
    · cases h
  · cases h

/-- Behind an escape there is an end of the text. -/
theorem read_suffix {f : Flags} {cs : List Char} {e : Escape} {rest : List Char}
    (h : read f cs = some (e, rest)) : rest <:+ cs := by
  unfold read at h
  split at h
  · cases h
  · rw [Option.filter_eq_some_iff] at h
    exact (numbered_suffix h.1).trans (List.suffix_cons _ _)
  · exact (numbered_suffix h).trans (List.suffix_cons _ _)
  · exact (numbered_suffix h).trans (List.suffix_cons _ _)
  · rename_i c cs _ _ _
    cases he : ofChar? f c with
    | none => simp [he] at h
    | some e => simp [he] at h; rw [← h.2]; exact List.suffix_cons c cs

end Escape

end IndexFeed.Log.Pattern
