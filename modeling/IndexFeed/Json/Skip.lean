import IndexFeed.Json.Container
import IndexFeed.Json.NumberText

/-!
# Skipping JSON values

A value that nobody asked for is walked over without building it.  The walk is more lenient than
decoding: brackets nest to any depth, numbers have any size, and strings may hold any octets and
any escaped surrogates.  It keeps a stack of the open brackets, innermost first.
-/

set_option autoImplicit false

namespace IndexFeed.Json

/-! ## Strings -/

/-- Walks over an escape behind its backslash. -/
def skipEscape (c : Cursor) : Except Fault Cursor :=
  match c.rest with
  | [] => .error (c.behind .endInString)
  | b :: r =>
    if (simpleEscape? b).isSome then .ok ⟨c.index + 1, r⟩
    else if b = Octet.letterU then (readQuad ⟨c.index + 1, r⟩).map Prod.snd
    else .error (Cursor.behind ⟨c.index + 1, r⟩ .invalidEscape)

theorem skipEscape_le {c d : Cursor} (h : skipEscape c = .ok d) : c ≤ d := by
  unfold skipEscape at h
  split at h
  · cases h
  · next hr =>
    have hc := Cursor.le_of_lt (Cursor.lt_tail hr)
    split at h
    · cases h
      exact hc
    · split at h
      · cases hq : readQuad ⟨c.index + 1, _⟩ with
        | error e => rw [hq] at h; cases h
        | ok p =>
          rw [hq] at h
          cases h
          exact Cursor.le_trans hc (readQuad_le hq)
      · cases h

/-- Walks over a string behind its opening quote.  A control character is not taken. -/
def skipString (c : Cursor) : Except Fault Cursor :=
  match _h : c.rest with
  | [] => .error (c.behind .endInString)
  | b :: r =>
    if b = Octet.quote then .ok ⟨c.index + 1, r⟩
    else if b = Octet.backslash then
      match _k : skipEscape ⟨c.index + 1, r⟩ with
      | .ok d => skipString d
      | .error e => .error e
    else if b < 0x20 then .error (c.behind .controlCharacter)
    else skipString ⟨c.index + 1, r⟩
termination_by c.rest.length
decreasing_by
  · exact Cursor.length_rest_lt (Cursor.lt_of_lt_of_le (Cursor.lt_tail ‹_›) (skipEscape_le ‹_›))
  · exact Cursor.length_rest_lt (Cursor.lt_tail ‹_›)

theorem skipString_le {c d : Cursor} (h : skipString c = .ok d) : c ≤ d := by
  fun_induction skipString c with
  | case1 => cases h
  | case2 c r hr =>
    cases h
    exact Cursor.le_of_lt (Cursor.lt_tail hr)
  | case3 c r e hk hr _ ih =>
    exact Cursor.le_trans (Cursor.le_of_lt (Cursor.lt_tail hr))
      (Cursor.le_trans (skipEscape_le hk) (ih h))
  | case4 => cases h
  | case5 => cases h
  | case6 c b r hr _ _ _ ih =>
    exact Cursor.le_trans (Cursor.le_of_lt (Cursor.lt_tail hr)) (ih h)

/-! ## Numbers -/

/-- Walks over an exponent behind its letter. -/
def skipExponent (c : Cursor) : Except Fault Cursor :=
  let (_, c) := exponentSign c
  match c.rest with
  | [] => .error (c.behind .invalidNumber)
  | b :: _ =>
    if Octet.isDigit b then .ok (c.advance c.digits.length)
    else .error ((c.advance 1).behind .invalidNumber)

/-- Walks over what follows the digits in front of the point. -/
def skipScale (c : Cursor) : Except Fault Cursor :=
  match c.rest with
  | b :: _ =>
    if b = Octet.point then
      let c := c.advance 1
      if c.digits.isEmpty then .error (c.ahead .invalidNumber)
      else
        let c := c.advance c.digits.length
        if c.atExponent then skipExponent (c.advance 1) else .ok c
    else if c.atExponent then skipExponent (c.advance 1)
    else .ok c
  | [] => .ok c

/-- Walks over a number behind its sign. -/
def skipNumber (c : Cursor) : Except Fault Cursor :=
  match c.rest with
  | [] => .error (c.behind .invalidNumber)
  | b :: r =>
    if !Octet.isDigit b then .error ((c.advance 1).behind .invalidNumber)
    else if b = Octet.zero then
      if (r.head?.map Octet.isDigit).getD false then .error ((c.advance 1).ahead .invalidNumber)
      else skipScale (c.advance 1)
    else skipScale (c.advance c.digits.length)

theorem skipExponent_le {c d : Cursor} (h : skipExponent c = .ok d) : c ≤ d := by
  have hs := exponentSign_le c
  unfold skipExponent at h
  generalize exponentSign c = signed at h hs
  obtain ⟨_, c₁⟩ := signed
  dsimp only at h hs
  split at h
  · cases h
  · split at h
    · cases h
      exact Cursor.le_trans hs c₁.le_advance_digits
    · cases h

theorem skipScale_le {c d : Cursor} (h : skipScale c = .ok d) : c ≤ d := by
  unfold skipScale at h
  split at h
  · next hr =>
    have hc := Cursor.le_of_lt (Cursor.lt_advance_one hr)
    split at h
    · have hd := Cursor.le_trans hc (Cursor.le_advance_digits _)
      dsimp only at h
      split at h
      · cases h
      · split at h
        · next he =>
          exact Cursor.le_trans hd (Cursor.le_trans
            (Cursor.le_of_lt (Cursor.lt_advance_of_atExponent he)) (skipExponent_le h))
        · cases h
          exact hd
    · split at h
      · exact Cursor.le_trans hc (skipExponent_le h)
      · cases h
        exact c.le_refl
  · cases h
    exact c.le_refl

theorem skipNumber_lt {c d : Cursor} (h : skipNumber c = .ok d) : c < d := by
  unfold skipNumber at h
  split at h
  · cases h
  · next b r hr =>
    split at h
    · cases h
    · next hb =>
      split at h
      · split at h
        · cases h
        · exact Cursor.lt_of_lt_of_le (Cursor.lt_advance_one hr) (skipScale_le h)
      · exact Cursor.lt_of_lt_of_le (Cursor.lt_advance_digits hr (by simpa using hb))
          (skipScale_le h)

/-! ## Values -/

/-- A container that is open. -/
inductive Frame where
  | list
  | map
  deriving DecidableEq, Repr, Inhabited

/-- The closing bracket of a container. -/
def Frame.closing : Frame → UInt8
  | .list => Octet.closeBracket
  | .map => Octet.closeBrace

/-- What is wrong when the text ends in a container. -/
def Frame.atEnd : Frame → Cause
  | .list => .endInList
  | .map => .endInObject

/-- What is wrong when neither a comma nor the closing bracket follows. -/
def Frame.unseparated : Frame → Cause
  | .list => .expectedListCommaOrEnd
  | .map => .expectedObjectCommaOrEnd

/-- A decoder that keeps nothing of what a walk takes. -/
def Decoder.walk (f : Cursor → Except Fault Cursor)
    (consumes : ∀ {c d : Cursor}, f c = .ok d → c < d) : Decoder Unit where
  run c := (f c).map fun d => ((), d)
  consumes := by
    intro c a d h
    cases hf : f c with
    | error e => rw [hf] at h; cases h
    | ok d' =>
      rw [hf] at h
      cases h
      exact consumes hf

/-- A decoder that takes the octet at the cursor and walks on. -/
def Decoder.walkAfter (f : Cursor → Except Fault Cursor)
    (keeps : ∀ {c d : Cursor}, f c = .ok d → c ≤ d) : Decoder Unit :=
  .afterHead (fun c => (f c).map fun d => ((), d)) (by
    intro c a d h
    cases hf : f c with
    | error e => rw [hf] at h; cases h
    | ok d' =>
      rw [hf] at h
      cases h
      exact keeps hf)

/-- Walks over a value without brackets, or over one opening bracket, which is then named. -/
def Decoder.skipHead : Decoder (Option Frame) :=
  .onHead .endInValue fun b =>
    if b = Octet.letterN then .literal [0x75, 0x6c, 0x6c] none
    else if b = Octet.letterT then .literal [0x72, 0x75, 0x65] none
    else if b = Octet.letterF then .literal [0x61, 0x6c, 0x73, 0x65] none
    else if b = Octet.minus then
      (Decoder.walkAfter skipNumber fun h => Cursor.le_of_lt (skipNumber_lt h)).map fun _ => none
    else if Octet.isDigit b then (Decoder.walk skipNumber skipNumber_lt).map fun _ => none
    else if b = Octet.quote then (Decoder.walkAfter skipString skipString_le).map fun _ => none
    else if b = Octet.openBracket then .one (some .list)
    else if b = Octet.openBrace then .one (some .map)
    else .fail (·.ahead .expectedValue)

/-- Walks over a key and its colon. -/
def Decoder.skipKey : Decoder Unit :=
  (Decoder.onHead .endInObject fun b =>
    if b = Octet.quote then .walkAfter skipString skipString_le
    else .fail (·.ahead .keyNotString)).andThen fun _ =>
      .onHead .endInObject fun b =>
        if b = Octet.colon then .one () else .fail (·.ahead .expectedColon)

/-- What a walk has in front of it: a key or a value in the innermost container, or what follows
a value (`comma`) or an opening bracket. -/
inductive Walk where
  | value
  | between (comma : Bool)
  deriving DecidableEq, Repr

/-- Walks until all containers on the stack have been closed. -/
def skipFrom (w : Walk) (stack : List Frame) (c : Cursor) : Except Fault Cursor :=
  match w, stack with
  | .value, stack =>
    match _h : Decoder.skipHead.run c with
    | .error e => .error e
    | .ok (none, d) => skipFrom (.between true) stack d
    | .ok (some frame, d) => skipFrom (.between false) (frame :: stack) d
  | .between _, [] => .ok c
  | .between comma, frame :: stack =>
    let d := c.skipBlanks
    match _h : d.rest with
    | [] => .error (d.ahead frame.atEnd)
    | b :: r =>
      if b = Octet.comma ∧ comma then
        match frame with
        | .list => skipFrom .value (.list :: stack) ⟨d.index + 1, r⟩
        | .map =>
          match _k : Decoder.skipKey.run ⟨d.index + 1, r⟩ with
          | .error e => .error e
          | .ok ((), e) => skipFrom .value (.map :: stack) e
      else if b = frame.closing then skipFrom (.between true) stack ⟨d.index + 1, r⟩
      else if comma then .error (d.ahead frame.unseparated)
      else
        match frame with
        | .list => skipFrom .value (.list :: stack) d
        | .map =>
          match _k : Decoder.skipKey.run d with
          | .error e => .error e
          | .ok ((), e) => skipFrom .value (.map :: stack) e
termination_by (c.rest.length, match w with | .value => 0 | .between _ => 1)
decreasing_by
  · exact .left _ _ (Cursor.length_rest_lt (Decoder.skipHead.consumes ‹_›))
  · exact .left _ _ (Cursor.length_rest_lt (Decoder.skipHead.consumes ‹_›))
  · exact .left _ _ (Cursor.length_rest_lt
      (Cursor.lt_of_le_of_lt c.le_skipBlanks (Cursor.lt_tail ‹_›)))
  · exact .left _ _ (Cursor.length_rest_lt (Cursor.lt_of_le_of_lt c.le_skipBlanks
      (Cursor.lt_trans (Cursor.lt_tail ‹_›) (Decoder.skipKey.consumes ‹_›))))
  · exact .left _ _ (Cursor.length_rest_lt
      (Cursor.lt_of_le_of_lt c.le_skipBlanks (Cursor.lt_tail ‹_›)))
  · rcases Nat.lt_or_eq_of_le (Cursor.length_rest_le c.le_skipBlanks) with hlt | heq
    · exact .left _ _ hlt
    · rw [heq]
      exact .right _ (by decide)
  · exact .left _ _ (Cursor.length_rest_lt
      (Cursor.lt_of_le_of_lt c.le_skipBlanks (Decoder.skipKey.consumes ‹_›)))

/-- A walk gives no octet back, and one that starts at a value takes at least one. -/
theorem skipFrom_le {w : Walk} {stack : List Frame} {c d : Cursor}
    (h : skipFrom w stack c = .ok d) : c ≤ d ∧ (w = .value → c < d) := by
  fun_induction skipFrom w stack c with
  | case1 => cases h
  | case2 c stack d' hd ih =>
    have := Cursor.lt_of_lt_of_le (Decoder.skipHead.consumes hd) (ih h).1
    exact ⟨Cursor.le_of_lt this, fun _ => this⟩
  | case3 c stack frame d' hd ih =>
    have := Cursor.lt_of_lt_of_le (Decoder.skipHead.consumes hd) (ih h).1
    exact ⟨Cursor.le_of_lt this, fun _ => this⟩
  | case4 c comma =>
    cases h
    exact ⟨Cursor.le_refl _, fun hw => by cases hw⟩
  | case5 => cases h
  | case6 c comma stack d' b r hr _ ih =>
    have hc : c < ⟨d'.index + 1, r⟩ := Cursor.lt_of_le_of_lt c.le_skipBlanks (Cursor.lt_tail hr)
    exact ⟨Cursor.le_trans (Cursor.le_of_lt hc) (ih h).1, fun hw => by cases hw⟩
  | case7 => cases h
  | case8 c comma stack d' b r hr _ e hk ih =>
    have hc : c < e := Cursor.lt_of_le_of_lt c.le_skipBlanks
      (Cursor.lt_trans (Cursor.lt_tail hr) (Decoder.skipKey.consumes hk))
    exact ⟨Cursor.le_trans (Cursor.le_of_lt hc) (ih h).1, fun hw => by cases hw⟩
  | case9 c comma frame stack d' r hr _ ih =>
    have hc : c < ⟨d'.index + 1, r⟩ := Cursor.lt_of_le_of_lt c.le_skipBlanks (Cursor.lt_tail hr)
    exact ⟨Cursor.le_trans (Cursor.le_of_lt hc) (ih h).1, fun hw => by cases hw⟩
  | case10 => cases h
  | case11 c comma stack d' b r hr _ _ _ ih =>
    exact ⟨Cursor.le_trans c.le_skipBlanks (ih h).1, fun hw => by cases hw⟩
  | case12 => cases h
  | case13 c comma stack d' b r hr _ _ e hk _ ih =>
    have hc : c < e := Cursor.lt_of_le_of_lt c.le_skipBlanks (Decoder.skipKey.consumes hk)
    exact ⟨Cursor.le_trans (Cursor.le_of_lt hc) (ih h).1, fun hw => by cases hw⟩

/-- Walks over one value. -/
def Decoder.skip : Decoder Unit :=
  .walk (skipFrom .value []) fun h => (skipFrom_le h).2 rfl

end IndexFeed.Json
