import IndexFeed.Json.StringText

/-!
# Arrays and objects in JSON text

The brackets, commas and colons around values, with a decoder for the items of an array and one
for the members of an object as parameters.  `Decoder.arrayOf` and `Decoder.objectOf` start at a
bracket that has been looked at.  When an item or a member fails, reading still leaves the
container: what it takes on the way out shows in the point where it stopped.
-/

set_option autoImplicit false

namespace IndexFeed.Json

variable {σ : Type}

/-! ## Between items and members -/

/-- Looks for the next item of an array: whether there is one, and the cursor in front of it or of
the closing bracket. -/
def nextItem (first : Bool) (c : Cursor) : Outcome Bool :=
  let c := c.skipBlanks
  match c.rest with
  | [] => .error (c.ahead .endInList)
  | b :: _ =>
    if b = Octet.closeBracket then .ok (false, c)
    else if first then .ok (true, c)
    else if b = Octet.comma then
      let c := (c.advance 1).skipBlanks
      match c.rest with
      | [] => .error (c.ahead .endInValue)
      | d :: _ =>
        if d = Octet.closeBracket then .error (c.ahead .trailingComma) else .ok (true, c)
    else .error (c.ahead .expectedListCommaOrEnd)

/-- Looks for the next member of an object: whether there is one, and the cursor in front of its
key or of the closing brace. -/
def nextKey (first : Bool) (c : Cursor) : Outcome Bool :=
  let c := c.skipBlanks
  match c.rest with
  | [] => .error (c.ahead .endInObject)
  | b :: _ =>
    if b = Octet.closeBrace then .ok (false, c)
    else if first then
      if b = Octet.quote then .ok (true, c) else .error (c.ahead .keyNotString)
    else if b = Octet.comma then
      let c := (c.advance 1).skipBlanks
      match c.rest with
      | [] => .error (c.ahead .endInValue)
      | d :: _ =>
        if d = Octet.quote then .ok (true, c)
        else if d = Octet.closeBrace then .error (c.ahead .trailingComma)
        else .error (c.ahead .keyNotString)
    else .error (c.ahead .expectedObjectCommaOrEnd)

/-- Takes the closing bracket of an array whose items have all been read. -/
def closeArray (c : Cursor) : Except Fault Cursor :=
  let c := c.skipBlanks
  match c.rest with
  | [] => .error (c.ahead .endInList)
  | b :: _ =>
    if b = Octet.closeBracket then .ok (c.advance 1)
    else if b = Octet.comma then
      let c := (c.advance 1).skipBlanks
      if c.rest.head? = some Octet.closeBracket then .error (c.ahead .trailingComma)
      else .error (c.ahead .trailingCharacters)
    else .error (c.ahead .trailingCharacters)

/-- Takes the closing brace of an object whose members have all been read. -/
def closeObject (c : Cursor) : Except Fault Cursor :=
  let c := c.skipBlanks
  match c.rest with
  | [] => .error (c.ahead .endInObject)
  | b :: _ =>
    if b = Octet.closeBrace then .ok (c.advance 1)
    else if b = Octet.comma then .error (c.ahead .trailingComma)
    else .error (c.ahead .trailingCharacters)

/-- Behind the blanks, the next octet and more blanks. -/
theorem Cursor.lt_pastSeparator {c : Cursor} {b : UInt8} {r : Bytes}
    (h : c.skipBlanks.rest = b :: r) : c < (c.skipBlanks.advance 1).skipBlanks :=
  Cursor.lt_of_le_of_lt c.le_skipBlanks
    (Cursor.lt_of_lt_of_le (Cursor.lt_advance_one h) (Cursor.le_skipBlanks _))

theorem nextItem_le {first : Bool} {c d : Cursor} {b : Bool}
    (h : nextItem first c = .ok (b, d)) : c ≤ d := by
  have hc := c.le_skipBlanks
  unfold nextItem at h
  dsimp only at h
  split at h
  · cases h
  · next hr =>
    split at h
    · cases h
      exact hc
    · split at h
      · cases h
        exact hc
      · split at h
        · split at h
          · cases h
          · split at h
            · cases h
            · cases h
              exact Cursor.le_of_lt (Cursor.lt_pastSeparator hr)
        · cases h

theorem nextKey_le {first : Bool} {c d : Cursor} {b : Bool}
    (h : nextKey first c = .ok (b, d)) : c ≤ d := by
  have hc := c.le_skipBlanks
  unfold nextKey at h
  dsimp only at h
  split at h
  · cases h
  · next hr =>
    split at h
    · cases h
      exact hc
    · split at h
      · split at h
        · cases h
          exact hc
        · cases h
      · split at h
        · split at h
          · cases h
          · split at h
            · cases h
              exact Cursor.le_of_lt (Cursor.lt_pastSeparator hr)
            · split at h <;> cases h
        · cases h

theorem closeArray_le {c d : Cursor} (h : closeArray c = .ok d) : c ≤ d := by
  unfold closeArray at h
  dsimp only at h
  split at h
  · cases h
  · next hr =>
    split at h
    · cases h
      exact Cursor.le_trans c.le_skipBlanks (Cursor.le_of_lt (Cursor.lt_advance_one hr))
    · split at h
      · split at h <;> cases h
      · cases h

theorem closeObject_le {c d : Cursor} (h : closeObject c = .ok d) : c ≤ d := by
  unfold closeObject at h
  dsimp only at h
  split at h
  · cases h
  · next hr =>
    split at h
    · cases h
      exact Cursor.le_trans c.le_skipBlanks (Cursor.le_of_lt (Cursor.lt_advance_one hr))
    · split at h <;> cases h

/-! ## Arrays -/

/-- Reads items as long as one is wanted and one is there; the number of items read in all, and
the state that the item decoders have built. -/
def readItems (item : Nat → σ → Option (Decoder σ)) (i : Nat) (s : σ) (c : Cursor) :
    Outcome (Nat × σ) :=
  match item i s with
  | none => .ok ((i, s), c)
  | some decoder =>
    match _h : nextItem (i == 0) c with
    | .error e => .error e
    | .ok (false, d) => .ok ((i, s), d)
    | .ok (true, d) =>
      match _k : decoder.run d with
      | .error e => .error e
      | .ok (t, e) => readItems item (i + 1) t e
termination_by c.rest.length
decreasing_by
  exact Cursor.length_rest_lt (Cursor.lt_of_le_of_lt (nextItem_le ‹_›) (decoder.consumes ‹_›))

theorem readItems_le {item : Nat → σ → Option (Decoder σ)} {i : Nat} {s : σ} {c d : Cursor}
    {r : Nat × σ} (h : readItems item i s c = .ok (r, d)) : c ≤ d := by
  fun_induction readItems item i s c with
  | case1 => cases h; exact Cursor.le_refl _
  | case2 => cases h
  | case3 => cases h; exact nextItem_le ‹_›
  | case4 => cases h
  | case5 i s c decoder _ d' hn t e hr ih =>
    exact Cursor.le_trans (nextItem_le hn)
      (Cursor.le_trans (Cursor.le_of_lt (decoder.consumes hr)) (ih h))

/-- The items of an array behind its opening bracket, and the closing bracket. -/
def readArray (item : Nat → σ → Option (Decoder σ)) (s : σ) (c : Cursor) : Outcome (Nat × σ) :=
  match readItems item 0 s c with
  | .error e => .error e.leaveArray
  | .ok (r, d) =>
    match closeArray d with
    | .error e => .error e
    | .ok e => .ok (r, e)

theorem readArray_le {item : Nat → σ → Option (Decoder σ)} {s : σ} {c d : Cursor}
    {r : Nat × σ} (h : readArray item s c = .ok (r, d)) : c ≤ d := by
  unfold readArray at h
  split at h
  · cases h
  · next hi =>
    split at h
    · cases h
    · next hc =>
      cases h
      exact Cursor.le_trans (readItems_le hi) (closeArray_le hc)

/-! ## Objects -/

/-- Reads the members of an object up to the closing brace. -/
def readMembers (member : String → σ → Decoder σ) (first : Bool) (s : σ) (c : Cursor) :
    Outcome σ :=
  match _h : nextKey first c with
  | .error e => .error e
  | .ok (false, d) => .ok (s, d)
  | .ok (true, d) =>
    match _k : Decoder.quoted.run d with
    | .error e => .error e
    | .ok (key, e) =>
      match _m : (member key s).run e with
      | .error f => .error f
      | .ok (t, f) => readMembers member false t f
termination_by c.rest.length
decreasing_by
  exact Cursor.length_rest_lt (Cursor.lt_of_le_of_lt (nextKey_le ‹_›)
    (Cursor.lt_trans (Decoder.quoted.consumes ‹_›) ((member key s).consumes ‹_›)))

theorem readMembers_le {member : String → σ → Decoder σ} {first : Bool} {s t : σ}
    {c d : Cursor} (h : readMembers member first s c = .ok (t, d)) :
    c ≤ d := by
  fun_induction readMembers member first s c with
  | case1 => cases h
  | case2 => cases h; exact nextKey_le ‹_›
  | case3 => cases h
  | case4 => cases h
  | case5 first s c d' hn key e hk t' f hm ih =>
    exact Cursor.le_trans (nextKey_le hn) (Cursor.le_trans (Cursor.le_of_lt
      (Cursor.lt_trans (Decoder.quoted.consumes hk) ((member key s).consumes hm))) (ih h))

/-- The members of an object behind its opening brace, and the closing brace. -/
def readObject (member : String → σ → Decoder σ) (s : σ) (c : Cursor) : Outcome σ :=
  match readMembers member true s c with
  | .error e => .error e.leaveObject
  | .ok (r, d) =>
    match closeObject d with
    | .error e => .error e
    | .ok e => .ok (r, e)

theorem readObject_le {member : String → σ → Decoder σ} {s t : σ} {c d : Cursor}
    (h : readObject member s c = .ok (t, d)) : c ≤ d := by
  unfold readObject at h
  split at h
  · cases h
  · next hi =>
    split at h
    · cases h
    · next hc =>
      cases h
      exact Cursor.le_trans (readMembers_le hi) (closeObject_le hc)

namespace Decoder

variable {α : Type}

/-- The colon between a key and its value, and the value. -/
def afterColon (d : Decoder α) : Decoder α :=
  onHead .endInObject fun b =>
    if b = Octet.colon then d.afterOctet else fail (·.ahead .expectedColon)

/-- An array at its opening bracket: the number of items read and the state built.  The array may
not end before `item` wants no further item, unless it closes. -/
def arrayOf (item : Nat → σ → Option (Decoder σ)) (s : σ) : Decoder (Nat × σ) :=
  afterHead (readArray item s) readArray_le

/-- An object at its opening brace. -/
def objectOf (member : String → σ → Decoder σ) (s : σ) : Decoder σ :=
  afterHead (readObject member s) readObject_le

end Decoder

end IndexFeed.Json
