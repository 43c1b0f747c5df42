import IndexFeed.Json.Fault

/-!
# Decoders

A decoder takes some octets off the text and gives a result, or raises a fault.  Every decoder
here carries a proof that, when it succeeds, its cursor has gone on by at least one octet of the
text, so that a loop over a decoder ends; the combinators of this module put such proofs together.
-/

set_option autoImplicit false

namespace IndexFeed.Json

/-! ## Raising faults -/

namespace Cursor

/-- A fault charged to the next octet. -/
def ahead (c : Cursor) (cause : Cause) : Fault := ⟨cause, some ⟨c, .ahead⟩, [], c, true⟩

/-- A fault charged to the last octet taken. -/
def behind (c : Cursor) (cause : Cause) : Fault :=
  ⟨cause, some ⟨c, .behind 0⟩, [], c, false⟩

/-- A fault charged to the last octet taken after a look at the next one. -/
def besideLook (c : Cursor) (cause : Cause) : Fault :=
  ⟨cause, some ⟨c, .besideLook⟩, [], c, true⟩

/-- A misfit, so far without a place. -/
def misfit (c : Cursor) (m : Misfit) : Fault := ⟨.misfit m, none, [], c, false⟩

end Cursor

namespace Fault

/-- Gives a fault that has no place the point where reading stopped. -/
def settle (f : Fault) : Fault :=
  match f.site with
  | some _ => f
  | none => { f with site := some ⟨f.stop, .behind 0⟩ }

/-- The fault seen from the value around the one it was raised in. -/
def under (f : Fault) (s : Segment) : Fault := { f with path := s :: f.path }

/-- Leaving an object after a fault inside it: blanks are skipped, and the closing brace is taken
if it comes next. -/
def leaveObject (f : Fault) : Fault :=
  let c := f.stop.skipBlanks
  match c.rest with
  | b :: _ =>
    if b = Octet.closeBrace then { f with stop := c.advance 1, looked := false }
    else { f with stop := c, looked := true }
  | [] => { f with stop := c, looked := true }

/-- Leaving an array after a fault inside it: blanks are skipped, and the closing bracket, or a
comma and the blanks after it, are taken if they come next. -/
def leaveArray (f : Fault) : Fault :=
  let c := f.stop.skipBlanks
  match c.rest with
  | b :: _ =>
    if b = Octet.closeBracket then { f with stop := c.advance 1, looked := false }
    else if b = Octet.comma then { f with stop := (c.advance 1).skipBlanks, looked := true }
    else { f with stop := c, looked := true }
  | [] => { f with stop := c, looked := true }

/-- The octets taken when reading stopped; on a stream, an octet looked at has been taken. -/
def taken (f : Fault) : Supply → Nat
  | .whole => f.stop.index
  | .stream => if f.looked && !f.stop.rest.isEmpty then f.stop.index + 1 else f.stop.index

/-- The decoder asked for an octet behind the last one when it raised this fault. -/
def reachesEnd (f : Fault) : Bool :=
  match f.site with
  | some ⟨c, .behind _⟩ => c.rest.isEmpty && f.cause.category == .early
  | some ⟨c, _⟩ => c.rest.isEmpty
  | none => false

end Fault

/-! ## Decoders -/

/-- The result of decoding with the cursor behind it, or a fault. -/
abbrev Outcome (α : Type) : Type := Except Fault (α × Cursor)

/-- A decoder that takes at least one octet when it succeeds. -/
structure Decoder (α : Type) where
  run : Cursor → Outcome α
  consumes : ∀ {c : Cursor} {a : α} {d : Cursor},
    run c = .ok (a, d) → c < d

namespace Decoder

variable {α β : Type}

/-- The decoder that always raises a fault. -/
def fail (f : Cursor → Fault) : Decoder α where
  run c := .error (f c)
  consumes h := by cases h

/-- Applies a function to the result. -/
def map (f : α → β) (d : Decoder α) : Decoder β where
  run c :=
    match d.run c with
    | .ok (a, c') => .ok (f a, c')
    | .error e => .error e
  consumes := by
    intro c b c' h
    split at h
    · next a c₁ e =>
      cases h
      exact d.consumes e
    · cases h

/-- Applies a function that may find the result unfit; reading then stops behind it. -/
def refine (f : α → Except Misfit β) (d : Decoder α) : Decoder β where
  run c :=
    match d.run c with
    | .ok (a, c') =>
      match f a with
      | .ok b => .ok (b, c')
      | .error m => .error (c'.misfit m)
    | .error e => .error e
  consumes := by
    intro c b c' h
    split at h
    · next a c₁ e =>
      split at h
      · cases h
        exact d.consumes e
      · cases h
    · cases h

/-- Changes the faults of a decoder. -/
def mapFault (f : Fault → Fault) (d : Decoder α) : Decoder α where
  run c :=
    match d.run c with
    | .ok r => .ok r
    | .error e => .error (f e)
  consumes := by
    intro c b c' h
    split at h
    · next r e =>
      cases h
      exact d.consumes e
    · cases h

/-- One decoder after the other. -/
def andThen (d : Decoder α) (f : α → Decoder β) : Decoder β where
  run c :=
    match d.run c with
    | .ok (a, c') => (f a).run c'
    | .error e => .error e
  consumes := by
    intro c b c' h
    split at h
    · next a c₁ e => exact Cursor.lt_trans (d.consumes e) ((f a).consumes h)
    · cases h

/-- Misfits of this decoder are placed where it stops. -/
def settled (d : Decoder α) : Decoder α := d.mapFault Fault.settle

/-- Faults of this decoder lie one step further inside the value. -/
def under (s : Segment) (d : Decoder α) : Decoder α := d.mapFault (·.under s)

/-- Skips blanks, looks at the next octet and goes on, without taking it, with the decoder chosen
for it; the text must not end there. -/
def onHead (atEnd : Cause) (f : UInt8 → Decoder α) : Decoder α where
  run c :=
    match c.skipBlanks.rest with
    | [] => .error (c.skipBlanks.ahead atEnd)
    | b :: _ => (f b).run c.skipBlanks
  consumes := by
    intro c a c' h
    split at h
    · cases h
    · exact Cursor.lt_of_le_of_lt c.le_skipBlanks ((f _).consumes h)

/-- Takes the next octet, which has been looked at, and goes on with a function that gives no
octet back. -/
def afterHead (f : Cursor → Outcome α)
    (keeps : ∀ {c : Cursor} {a : α} {d : Cursor},
      f c = .ok (a, d) → c ≤ d) : Decoder α where
  run c :=
    match c.rest with
    | [] => .error (c.ahead .endInValue)
    | _ :: r => f ⟨c.index + 1, r⟩
  consumes := by
    intro c a c' h
    split at h
    · cases h
    · next e => exact Cursor.lt_of_lt_of_le (Cursor.lt_tail e) (keeps h)

/-- Takes the next octet, which has been looked at, and goes on with a decoder. -/
def afterOctet (d : Decoder α) : Decoder α :=
  afterHead d.run fun h => Cursor.le_of_lt (d.consumes h)

/-- Takes the next octet, which has been looked at. -/
def one (a : α) : Decoder α :=
  afterHead (fun c => .ok (a, c)) fun h => by cases h; exact Cursor.le_refl _

end Decoder

end IndexFeed.Json
