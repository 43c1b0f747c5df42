import IndexFeed.Octet

/-!
# Sources of octets

A source hands out octets through a buffer that is filled again, up to its capacity, whenever it
is empty.  It may break: then asking for an octet behind the last one fails instead of ending.
-/

set_option autoImplicit false

namespace IndexFeed.Database

/-- Octets still to be taken, and how far they have been brought into the buffer. -/
structure Source where
  /-- the octets not yet taken, those in the buffer first -/
  rest : Bytes
  /-- how many of them the buffer holds -/
  buffered : Nat
  /-- the most octets that one filling brings in -/
  capacity : Nat
  capacity_pos : 0 < capacity
  /-- the text of the failure behind the last octet, if the source breaks there -/
  failure : Option String
  /-- the octets taken so far -/
  offset : Nat
  deriving Repr

namespace Source

/-- A source of the given octets; a capacity of zero counts as one. -/
def ofBytes (data : Bytes) (capacity : Nat) : Source :=
  ⟨data, 0, max capacity 1, by omega, none, 0⟩

/-- A source that serves the octets in front of `limit` and then breaks; where the data end before
that it just ends. -/
def breakingAt (data : Bytes) (limit : Nat) (failure : String) (capacity : Nat) : Source :=
  if limit ≤ data.length then
    { ofBytes (data.take limit) capacity with failure := some failure }
  else ofBytes data capacity

/-- Fills the buffer if it is empty. -/
def fill (s : Source) : Source :=
  if s.buffered = 0 then { s with buffered := (s.rest.take s.capacity).length } else s

/-- Takes octets that are in the buffer. -/
def consume (s : Source) (n : Nat) : Source :=
  { s with rest := s.rest.drop n, buffered := s.buffered - n, offset := s.offset + n }

/-- The octets that have been brought in so far, taken or not. -/
def fetched (s : Source) : Nat := s.offset + s.buffered

/-- Takes octets one by one, filling the buffer where needed. -/
def readThrough (s : Source) : Nat → Source
  | 0 => s
  | n + 1 => readThrough (s.fill.consume 1) n

@[simp] theorem rest_fill (s : Source) : s.fill.rest = s.rest := by
  unfold fill
  split <;> rfl

@[simp] theorem rest_consume (s : Source) (n : Nat) : (s.consume n).rest = s.rest.drop n := rfl

theorem rest_readThrough (s : Source) (n : Nat) : (s.readThrough n).rest = s.rest.drop n := by
  induction n generalizing s with
  | zero => rfl
  | succ n ih =>
    rw [readThrough, ih, rest_consume, rest_fill, List.drop_drop, Nat.add_comm]

/-- The next octet that is not blank, with the source in front of it; nothing at the end.  A
source that breaks fails there, with the blanks in front of the break taken. -/
def nextToken (s : Source) : Except String (Option UInt8) × Source :=
  let s' := s.fill
  match _h : s'.rest with
  | [] =>
    match s'.failure with
    | some failure => (.error failure, s')
    | none => (.ok none, s')
  | b :: _ => if Octet.isBlank b then nextToken (s'.consume 1) else (.ok (some b), s')
termination_by s.rest.length
decreasing_by
  have hr : s.fill.rest = b :: _ := ‹_›
  rw [rest_consume, ← rest_fill s, hr]
  exact Nat.lt_succ_self _

/-- Looking for a token adds nothing. -/
theorem nextToken_le {s t : Source} {r : Except String (Option UInt8)}
    (h : s.nextToken = (r, t)) : t.rest.length ≤ s.rest.length := by
  fun_induction nextToken s with
  | case1 s | case2 s | case4 s =>
    have ht : s.fill = t := (Prod.mk.inj h).2
    exact ht ▸ Nat.le_of_eq (congrArg List.length (rest_fill s))
  | case3 s s' b r hr hb ih =>
    refine Nat.le_trans (ih h) ?_
    rw [rest_consume, rest_fill, List.length_drop]
    exact Nat.sub_le _ _

/-- The octets left after a token has been found are those from the token on. -/
theorem nextToken_some {s t : Source} {b : UInt8} (h : s.nextToken = (.ok (some b), t)) :
    t.rest.head? = some b ∧ t.rest.length ≤ s.rest.length := by
  refine ⟨?_, nextToken_le h⟩
  fun_induction nextToken s with
  | case1 => cases h
  | case2 => cases h
  | case3 s s' b r hr hb ih => exact ih h
  | case4 s s' x r hr hx =>
    obtain ⟨hx, rfl⟩ := Prod.mk.inj h
    cases hx
    rw [hr, List.head?_cons]

end Source

end IndexFeed.Database
