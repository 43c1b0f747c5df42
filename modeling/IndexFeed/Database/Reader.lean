import IndexFeed.Database.Error
import IndexFeed.Database.Source
import IndexFeed.Json.Value

/-!
# Reading a compilation database

The reader walks the root array of a database and hands its objects, one at a time and in order,
to a handler, which may halt it after any of them.  Between two objects the only state is what the
framing of the array allows next, so a later run goes on behind the last object.

An error is final, and so is the end of the document: `Reader.run` then answers at once.
-/

set_option autoImplicit false

namespace IndexFeed.Database

/-- What takes the objects of a database: the state after an object, and whether to go on. -/
abbrev Handler (σ : Type) : Type := σ → Json.Object → σ × Bool

/-- What the framing of the root array allows next. -/
inductive Expect where
  /-- the opening bracket -/
  | opening
  /-- an object or the closing bracket -/
  | firstElement
  /-- an object, behind a comma -/
  | element
  /-- a comma or the closing bracket -/
  | nextElement
  /-- nothing but blanks -/
  | trailing
  deriving DecidableEq, Repr, Inhabited

/-- A reader and its place in a document. -/
structure Reader where
  source : Source
  expect : Expect := .opening
  finished : Bool := false
  /-- where an error stopped the reader -/
  failedAt : Option Nat := none
  deriving Repr

/-- How a run without an error ended. -/
inductive Outcome where
  /-- the handler asked to stop -/
  | halted
  /-- the whole document has been read -/
  | finished
  deriving DecidableEq, Repr, Inhabited

namespace Reader

variable {σ : Type}

/-- The octets taken so far. -/
def offset (r : Reader) : Nat := r.source.offset

/-- What one step of a run comes to. -/
inductive Step (σ : Type) where
  | proceed (r : Reader) (s : σ)
  | halt (r : Reader) (s : σ)
  | finish (r : Reader) (s : σ)
  | fail (e : Error) (r : Reader) (s : σ)

/-- The error that a fault in an element is reported as.  A text that ends early is an early end
of the document, unless the source broke there. -/
def elementError (source : Source) (start stop : Nat) (f : Json.Fault) : Error :=
  match source.failure, f.reachesEnd with
  | some text, true => .unreadable (.other text)
  | _, _ =>
    match f.cause.category with
    | .early => .endsEarly stop
    | _ => .malformed stop (.element start (f.report .stream source.rest))

/-- Reads the object at the opening brace and hands it to the handler. -/
def readElement (h : Handler σ) (r : Reader) (s : σ) : Step σ :=
  match Json.Decoder.element.run (.start r.source.rest) with
  | .ok (o, c) =>
    let r := { r with source := r.source.readThrough c.index, expect := .nextElement }
    let (s, more) := h s o
    if more then .proceed r s else .halt r s
  | .error f =>
    let after := r.source.readThrough (f.taken .stream)
    .fail (elementError r.source r.offset after.offset f) { r with source := after } s

/-- Takes one octet of the framing. -/
def takeFraming (r : Reader) (next : Expect) : Reader :=
  { r with source := r.source.consume 1, expect := next }

/-- Goes on by one octet of the framing, or by one object. -/
def step (h : Handler σ) (r : Reader) (s : σ) : Step σ :=
  match r.source.nextToken with
  | (.error text, source) => .fail (.unreadable (.other text)) { r with source } s
  | (.ok none, source) =>
    let r := { r with source }
    match r.expect with
    | .trailing => .finish r s
    | _ => .fail (.endsEarly r.offset) r s
  | (.ok (some b), source) =>
    let r := { r with source }
    let complain := fun (c : Complaint) => Step.fail (.malformed r.offset c) r s
    match r.expect with
    | .opening =>
      if b = Octet.openBracket then .proceed (r.takeFraming .firstElement) s
      else complain .notAnArray
    | .firstElement =>
      if b = Octet.closeBracket then .proceed (r.takeFraming .trailing) s
      else if b = Octet.openBrace then readElement h r s
      else complain .notAnObject
    | .nextElement =>
      if b = Octet.closeBracket then .proceed (r.takeFraming .trailing) s
      else if b = Octet.comma then .proceed (r.takeFraming .element) s
      else complain (.unexpected b .separator)
    | .element =>
      if b = Octet.openBrace then readElement h r s
      else if b = Octet.closeBracket then complain (.unexpected b .object)
      else complain .notAnObject
    | .trailing => complain (.unexpected b .ending)

theorem readElement_lt {h : Handler σ} {r r' : Reader} {s s' : σ}
    (e : readElement h r s = .proceed r' s') :
    r'.source.rest.length < r.source.rest.length := by
  unfold readElement at e
  split at e
  · next o c hd =>
    have hc := Json.Decoder.element.consumes hd
    have hp := Json.Cursor.index_pos_of_start_lt hc
    have hn := (Json.Cursor.rest_of_start_le (Json.Cursor.le_of_lt hc)).2
    dsimp only at e
    split at e
    · cases e
      simp only [Source.rest_readThrough, List.length_drop]
      omega
    · cases e
  · cases e

/-- A handler that halts the reader does so behind an object. -/
theorem readElement_halt_lt {h : Handler σ} {r r' : Reader} {s s' : σ}
    (e : readElement h r s = .halt r' s') :
    r'.source.rest.length < r.source.rest.length := by
  unfold readElement at e
  split at e
  · next o c hd =>
    have hc := Json.Decoder.element.consumes hd
    have hp := Json.Cursor.index_pos_of_start_lt hc
    have hn := (Json.Cursor.rest_of_start_le (Json.Cursor.le_of_lt hc)).2
    dsimp only at e
    split at e
    · cases e
    · cases e
      simp only [Source.rest_readThrough, List.length_drop]
      omega
  · cases e

theorem takeFraming_lt {r : Reader} {next : Expect} (hr : r.source.rest ≠ []) :
    (r.takeFraming next).source.rest.length < r.source.rest.length := by
  have := List.length_pos_iff.2 hr
  simp only [takeFraming, Source.rest_consume, List.length_drop]
  omega

/-- Every step that goes on takes at least one octet. -/
theorem step_lt {h : Handler σ} {r r' : Reader} {s s' : σ} (e : step h r s = .proceed r' s') :
    r'.source.rest.length < r.source.rest.length := by
  unfold step at e
  split at e
  · cases e
  · dsimp only at e
    split at e <;> cases e
  · next b source ht =>
    obtain ⟨hb, hle⟩ := Source.nextToken_some ht
    have hne : source.rest ≠ [] := by
      intro hnil
      rw [hnil] at hb
      cases hb
    have hbump : ∀ next, ({ r with source } : Reader).takeFraming next = r' →
        r'.source.rest.length < r.source.rest.length := by
      intro next hr
      rw [← hr]
      exact Nat.lt_of_lt_of_le (takeFraming_lt (r := { r with source }) hne) hle
    have helem : readElement h { r with source } s = .proceed r' s' →
        r'.source.rest.length < r.source.rest.length := fun hr =>
      Nat.lt_of_lt_of_le (readElement_lt hr) hle
    dsimp only at e
    split at e
    · split at e
      · injection e with e
        exact hbump _ e
      · cases e
    · split at e
      · injection e with e
        exact hbump _ e
      · split at e
        · exact helem e
        · cases e
    · split at e
      · injection e with e
        exact hbump _ e
      · split at e
        · injection e with e
          exact hbump _ e
        · cases e
    · split at e
      · exact helem e
      · split at e <;> cases e
    · cases e

/-- Steps until the handler halts the reader, the document ends or an error turns up. -/
def runSteps (h : Handler σ) (r : Reader) (s : σ) : Except Error Outcome × Reader × σ :=
  match _e : step h r s with
  | .proceed r' s' => runSteps h r' s'
  | .halt r' s' => (.ok .halted, r', s')
  | .finish r' s' => (.ok .finished, { r' with finished := true }, s')
  | .fail e r' s' => (.error e, { r' with failedAt := some r'.offset }, s')
termination_by r.source.rest.length
decreasing_by exact step_lt ‹_›

/-- A step that halts has read an object. -/
theorem step_halt_lt {h : Handler σ} {r r' : Reader} {s s' : σ} (e : step h r s = .halt r' s') :
    r'.source.rest.length < r.source.rest.length := by
  unfold step at e
  split at e
  · cases e
  · dsimp only at e
    split at e <;> cases e
  · next b source ht =>
    obtain ⟨_, hle⟩ := Source.nextToken_some ht
    have helem : readElement h { r with source } s = .halt r' s' →
        r'.source.rest.length < r.source.rest.length := fun hr =>
      Nat.lt_of_lt_of_le (readElement_halt_lt hr) hle
    dsimp only at e
    split at e
    · split at e <;> cases e
    · split at e
      · cases e
      · split at e
        · exact helem e
        · cases e
    · split at e
      · cases e
      · split at e <;> cases e
    · split at e
      · exact helem e
      · split at e <;> cases e
    · cases e

/-- A run that halts has read at least one object. -/
theorem runSteps_halted_lt {h : Handler σ} {r r' : Reader} {s s' : σ}
    (e : runSteps h r s = (.ok .halted, r', s')) :
    r'.source.rest.length < r.source.rest.length := by
  fun_induction runSteps h r s with
  | case1 r s r₁ s₁ hs ih => exact Nat.lt_trans (ih e) (step_lt hs)
  | case2 r s r₁ s₁ hs =>
    cases e
    exact step_halt_lt hs
  | case3 => cases e
  | case4 => cases e

/-- Hands objects to the handler until it halts the reader, the document ends or an error turns
up. -/
def run (h : Handler σ) (r : Reader) (s : σ) : Except Error Outcome × Reader × σ :=
  match r.failedAt with
  | some offset => (.error (.malformed offset .stopped), r, s)
  | none => if r.finished then (.ok .finished, r, s) else runSteps h r s

theorem run_halted_lt {h : Handler σ} {r r' : Reader} {s s' : σ}
    (e : r.run h s = (.ok .halted, r', s')) :
    r'.source.rest.length < r.source.rest.length := by
  unfold run at e
  split at e
  · cases e
  · split at e
    · cases e
    · exact runSteps_halted_lt e

/-- Whether the next token closes the root array.  Only blanks are taken. -/
def nextClosesRoot (r : Reader) : Except Error Bool × Reader :=
  if r.finished || r.failedAt.isSome then (.ok false, r)
  else
    match r.expect with
    | .firstElement | .nextElement =>
      match r.source.nextToken with
      | (.error text, source) => (.error (.unreadable (.other text)), { r with source })
      | (.ok token, source) => (.ok (token == some Octet.closeBracket), { r with source })
    | _ => (.ok false, r)

theorem nextClosesRoot_le {r r' : Reader} {b : Bool} (e : r.nextClosesRoot = (.ok b, r')) :
    r'.source.rest.length ≤ r.source.rest.length := by
  unfold nextClosesRoot at e
  split at e
  · cases e
    exact Nat.le_refl _
  · split at e
    · split at e
      · cases e
      · next token source ht =>
        cases e
        exact Source.nextToken_le ht
    · split at e
      · cases e
      · next token source ht =>
        cases e
        exact Source.nextToken_le ht
    · cases e
      exact Nat.le_refl _

end Reader

/-! ## Handlers -/

/-- Counts the objects. -/
def Handler.count : Handler Nat := fun n _ => (n + 1, true)

/-- Keeps the objects in order, and halts the reader behind the object with the number `n`,
counted from one, where `halts n` holds. -/
def Handler.record (halts : Nat → Bool) : Handler (List Json.Object) := fun seen o =>
  (seen ++ [o], !halts (seen.length + 1))

end IndexFeed.Database
