import IndexFeed.Json.Decoder
import IndexFeed.Text.Utf8

/-!
# Strings and literals in JSON text

A string is read into octets first: every escape becomes the UTF-8 of its character, every other
octet stands for itself.  Behind the closing quote the octets must be UTF-8 throughout.
-/

set_option autoImplicit false

namespace IndexFeed.Json

/-! ## Literals -/

/-- Takes exactly the octets of a word. -/
def takeWord : Bytes → Cursor → Except Fault Cursor
  | [], c => .ok c
  | w :: word, c =>
    match c.rest with
    | [] => .error (c.behind .endInValue)
    | b :: r =>
      if b = w then takeWord word ⟨c.index + 1, r⟩
      else .error (Cursor.behind ⟨c.index + 1, r⟩ .expectedIdent)

theorem takeWord_le {word : Bytes} {c d : Cursor} (h : takeWord word c = .ok d) : c ≤ d := by
  induction word generalizing c with
  | nil => cases h; exact Cursor.le_refl _
  | cons w word ih =>
    rw [takeWord] at h
    split at h
    · cases h
    · next b r hr =>
      split at h
      · exact Cursor.le_trans (Cursor.le_of_lt (Cursor.lt_tail hr)) (ih h)
      · cases h

/-- A literal whose first octet has been looked at; `word` is the rest of it. -/
def Decoder.literal {α : Type} (word : Bytes) (a : α) : Decoder α :=
  .afterHead
    (fun c =>
      match takeWord word c with
      | .ok d => .ok (a, d)
      | .error e => .error e)
    (by
      intro c x d h
      split at h
      · next e =>
        cases h
        exact takeWord_le e
      · cases h)

/-! ## Escapes -/

/-- The octet that an escape of two characters stands for. -/
def simpleEscape? (b : UInt8) : Option UInt8 :=
  if b = Octet.quote then some Octet.quote
  else if b = Octet.backslash then some Octet.backslash
  else if b = 0x2f then some 0x2f
  else if b = 0x62 then some 0x08
  else if b = Octet.letterF then some 0x0c
  else if b = Octet.letterN then some Octet.lineFeed
  else if b = 0x72 then some Octet.carriageReturn
  else if b = Octet.letterT then some Octet.tab
  else none

/-- The first half of a surrogate pair. -/
def isLeading (n : Nat) : Bool := 0xd800 ≤ n && n ≤ 0xdbff

/-- The second half of a surrogate pair. -/
def isTrailing (n : Nat) : Bool := 0xdc00 ≤ n && n ≤ 0xdfff

/-- The scalar value of a surrogate pair. -/
def pairValue (leading trailing : Nat) : Nat :=
  0x10000 + (leading - 0xd800) * 0x400 + (trailing - 0xdc00)

/-- The UTF-8 of a scalar value. -/
def scalarOctets (n : Nat) : Bytes := String.utf8EncodeChar (Char.ofNat n)

/-- Four hexadecimal digits; where fewer octets are left, they are all taken. -/
def readQuad (c : Cursor) : Outcome Nat :=
  match c.rest with
  | x :: y :: z :: w :: r =>
    match Octet.hexQuad? x y z w with
    | some n => .ok (n, ⟨c.index + 4, r⟩)
    | none => .error (Cursor.behind ⟨c.index + 4, r⟩ .invalidEscape)
  | short => .error (Cursor.behind ⟨c.index + short.length, []⟩ .endInString)

/-- Takes one octet, which must be the given one for a surrogate pair to go on. -/
def takeInPair (wanted : UInt8) (c : Cursor) : Except Fault Cursor :=
  match c.rest with
  | [] => .error (c.behind .endInString)
  | b :: r =>
    if b = wanted then .ok ⟨c.index + 1, r⟩
    else .error (Cursor.behind ⟨c.index + 1, r⟩ .brokenPair)

/-- The second half of a surrogate pair. -/
def readTrailing (leading : Nat) (c : Cursor) : Except Fault (Bytes × Cursor) := do
  let c ← takeInPair Octet.backslash c
  let c ← takeInPair Octet.letterU c
  let (trailing, c) ← readQuad c
  if isTrailing trailing then .ok (scalarOctets (pairValue leading trailing), c)
  else .error (c.behind .loneSurrogate)

/-- An escape by number. -/
def readNumbered (c : Cursor) : Except Fault (Bytes × Cursor) := do
  let (n, c) ← readQuad c
  if isTrailing n then .error (c.behind .loneSurrogate)
  else if isLeading n then readTrailing n c
  else .ok (scalarOctets n, c)

/-- An escape behind its backslash. -/
def readEscape (c : Cursor) : Outcome Bytes :=
  match c.rest with
  | [] => .error (c.behind .endInString)
  | b :: r =>
    match simpleEscape? b with
    | some x => .ok ([x], ⟨c.index + 1, r⟩)
    | none =>
      if b = Octet.letterU then readNumbered ⟨c.index + 1, r⟩
      else .error (Cursor.behind ⟨c.index + 1, r⟩ .invalidEscape)

theorem readQuad_le {c d : Cursor} {n : Nat} (h : readQuad c = .ok (n, d)) : c ≤ d := by
  unfold readQuad at h
  split at h
  · next hr =>
    split at h
    · cases h
      exact ⟨4, by simp [hr], by simp [Cursor.advance, hr]⟩
    · cases h
  · cases h

theorem takeInPair_le {w : UInt8} {c d : Cursor} (h : takeInPair w c = .ok d) : c ≤ d := by
  unfold takeInPair at h
  split at h
  · cases h
  · next hr =>
    split at h
    · cases h
      exact Cursor.le_of_lt (Cursor.lt_tail hr)
    · cases h

theorem readTrailing_le {n : Nat} {c d : Cursor} {bs : Bytes}
    (h : readTrailing n c = .ok (bs, d)) : c ≤ d := by
  simp only [readTrailing, bind, Except.bind] at h
  split at h
  · cases h
  · next e₁ =>
    split at h
    · cases h
    · next e₂ =>
      split at h
      · cases h
      · next e₃ =>
        split at h
        · obtain ⟨-, rfl⟩ := Prod.mk.inj (Except.ok.inj h)
          exact Cursor.le_trans (takeInPair_le e₁)
            (Cursor.le_trans (takeInPair_le e₂) (readQuad_le e₃))
        · cases h

theorem readNumbered_le {c d : Cursor} {bs : Bytes} (h : readNumbered c = .ok (bs, d)) :
    c ≤ d := by
  simp only [readNumbered, bind, Except.bind] at h
  split at h
  · cases h
  · next e =>
    have hq := readQuad_le e
    split at h
    · cases h
    · split at h
      · exact Cursor.le_trans hq (readTrailing_le h)
      · obtain ⟨-, rfl⟩ := Prod.mk.inj (Except.ok.inj h)
        exact hq

theorem readEscape_le {c d : Cursor} {bs : Bytes} (h : readEscape c = .ok (bs, d)) : c ≤ d := by
  unfold readEscape at h
  split at h
  · cases h
  · next hr =>
    have hc := Cursor.le_of_lt (Cursor.lt_tail hr)
    split at h
    · cases h
      exact hc
    · split at h
      · exact Cursor.le_trans hc (readNumbered_le h)
      · cases h

/-! ## Strings -/

/-- One piece of a string: the octets of the next character or escape, or nothing at the closing
quote, which is taken. -/
def readPiece (c : Cursor) : Outcome (Option Bytes) :=
  match c.rest with
  | [] => .error (c.behind .endInString)
  | b :: r =>
    if b = Octet.quote then .ok (none, ⟨c.index + 1, r⟩)
    else if b = Octet.backslash then
      match readEscape ⟨c.index + 1, r⟩ with
      | .ok (bs, d) => .ok (some bs, d)
      | .error e => .error e
    else if b < 0x20 then .error (Cursor.behind ⟨c.index + 1, r⟩ .controlCharacter)
    else .ok (some [b], ⟨c.index + 1, r⟩)

theorem readPiece_lt {c d : Cursor} {p : Option Bytes} (h : readPiece c = .ok (p, d)) :
    c < d := by
  unfold readPiece at h
  split at h
  · cases h
  · next hr =>
    have hc := Cursor.lt_tail hr
    split at h
    · cases h
      exact hc
    · split at h
      · split at h
        · next e =>
          cases h
          exact Cursor.lt_of_lt_of_le hc (readEscape_le e)
        · cases h
      · split at h
        · cases h
        · cases h
          exact hc

/-- The octets of a string behind its opening quote. -/
def readOctets (c : Cursor) : Outcome Bytes :=
  match _h : readPiece c with
  | .error e => .error e
  | .ok (none, d) => .ok ([], d)
  | .ok (some bs, d) =>
    match readOctets d with
    | .error e => .error e
    | .ok (more, e) => .ok (bs ++ more, e)
termination_by c.rest.length
decreasing_by exact Cursor.length_rest_lt (readPiece_lt ‹_›)

theorem readOctets_le {c d : Cursor} {bs : Bytes} (h : readOctets c = .ok (bs, d)) :
    c ≤ d := by
  fun_induction readOctets c generalizing bs with
  | case1 => cases h
  | case2 c d' hp =>
    cases h
    exact Cursor.le_of_lt (readPiece_lt hp)
  | case3 => cases h
  | case4 c bs' d' hp more e hm ih =>
    cases h
    exact Cursor.le_trans (Cursor.le_of_lt (readPiece_lt hp)) (ih hm)

/-- The text of a string behind its opening quote. -/
def readString (c : Cursor) : Outcome String :=
  match readOctets c with
  | .error e => .error e
  | .ok (bs, d) =>
    match Utf8.decode bs with
    | .ok s => .ok (s, d)
    | .error left => .error ⟨.invalidCodePoint, some ⟨d, .behind left⟩, [], d, false⟩

theorem readString_le {c d : Cursor} {s : String} (h : readString c = .ok (s, d)) :
    c ≤ d := by
  unfold readString at h
  split at h
  · cases h
  · next e =>
    split at h
    · cases h
      exact readOctets_le e
    · cases h

/-- A string whose opening quote has been looked at. -/
def Decoder.quoted : Decoder String := .afterHead readString readString_le

end IndexFeed.Json
