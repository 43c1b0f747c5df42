import IndexFeed.Octet

/-!
# Places in a text

A cursor is a place in a text, with the octets that are left.  Cursors are ordered: `c ≤ d` says
that `d` is reached from `c` by taking octets, and `c < d` that at least one is taken.  So a
decoder that goes forward both uses the text up and reads nothing but the text, and a loop over
such a decoder ends because the octets left get fewer.
-/

set_option autoImplicit false

namespace IndexFeed.Json

/-- A reading position: how many octets came before it and the octets still to be read. -/
structure Cursor where
  index : Nat
  rest : Bytes
  deriving DecidableEq, Repr, Inhabited

namespace Cursor

variable {b c d e : Cursor}

/-- The beginning of a text. -/
def start (text : Bytes) : Cursor := ⟨0, text⟩

/-- The cursor behind `n` octets. -/
def advance (c : Cursor) (n : Nat) : Cursor := ⟨c.index + n, c.rest.drop n⟩

/-- The cursor behind the blanks. -/
def skipBlanks (c : Cursor) : Cursor :=
  ⟨c.index + (c.rest.takeWhile Octet.isBlank).length, c.rest.dropWhile Octet.isBlank⟩

@[simp] theorem advance_zero (c : Cursor) : c.advance 0 = c := rfl

@[simp] theorem advance_advance (c : Cursor) (m n : Nat) :
    (c.advance m).advance n = c.advance (m + n) := by
  simp only [advance, List.drop_drop, Nat.add_assoc]

@[simp] theorem length_rest_advance (c : Cursor) (n : Nat) :
    (c.advance n).rest.length = c.rest.length - n := List.length_drop

/-! ## The order -/

instance : LE Cursor := ⟨fun c d => ∃ n, n ≤ c.rest.length ∧ d = c.advance n⟩

instance : LT Cursor := ⟨fun c d => ∃ n, 0 < n ∧ n ≤ c.rest.length ∧ d = c.advance n⟩

protected theorem le_refl (c : Cursor) : c ≤ c := ⟨0, Nat.zero_le _, rfl⟩

protected theorem le_of_lt : c < d → c ≤ d := fun ⟨n, _, hn, h⟩ => ⟨n, hn, h⟩

protected theorem le_trans (h : c ≤ d) (k : d ≤ e) : c ≤ e := by
  obtain ⟨m, hm, rfl⟩ := h
  obtain ⟨n, hn, rfl⟩ := k
  rw [length_rest_advance] at hn
  exact ⟨m + n, by omega, advance_advance c m n⟩

protected theorem lt_of_lt_of_le (h : c < d) (k : d ≤ e) : c < e := by
  obtain ⟨m, hp, hm, rfl⟩ := h
  obtain ⟨n, hn, rfl⟩ := k
  rw [length_rest_advance] at hn
  exact ⟨m + n, by omega, by omega, advance_advance c m n⟩

protected theorem lt_of_le_of_lt (h : c ≤ d) (k : d < e) : c < e := by
  obtain ⟨m, hm, rfl⟩ := h
  obtain ⟨n, hp, hn, rfl⟩ := k
  rw [length_rest_advance] at hn
  exact ⟨m + n, by omega, by omega, advance_advance c m n⟩

protected theorem lt_trans (h : c < d) (k : d < e) : c < e :=
  Cursor.lt_of_lt_of_le h (Cursor.le_of_lt k)

/-- Going on leaves no more octets than before. -/
theorem length_rest_le (h : c ≤ d) : d.rest.length ≤ c.rest.length := by
  obtain ⟨n, _, rfl⟩ := h
  rw [length_rest_advance]
  exact Nat.sub_le _ _

/-- Taking an octet leaves fewer octets than before. -/
theorem length_rest_lt (h : c < d) : d.rest.length < c.rest.length := by
  obtain ⟨n, hp, hn, rfl⟩ := h
  rw [length_rest_advance]
  omega

/-- From the beginning of a text, a cursor has left what lies behind its index. -/
theorem rest_of_start_le {text : Bytes} (h : start text ≤ c) :
    c.rest = text.drop c.index ∧ c.index ≤ text.length := by
  obtain ⟨n, hn, rfl⟩ := h
  rw [advance, start, Nat.zero_add]
  exact ⟨rfl, hn⟩

/-- A cursor behind the beginning of a text has octets in front of it. -/
theorem index_pos_of_start_lt {text : Bytes} (h : start text < c) : 0 < c.index := by
  obtain ⟨n, hp, _, rfl⟩ := h
  simpa only [advance, start, Nat.zero_add] using hp

/-! ## Steps forward -/

theorem le_advance {n : Nat} (h : n ≤ c.rest.length) : c ≤ c.advance n := ⟨n, h, rfl⟩

theorem lt_advance {n : Nat} (hn : 0 < n) (h : n ≤ c.rest.length) : c < c.advance n :=
  ⟨n, hn, h, rfl⟩

theorem lt_advance_one {x : UInt8} {r : Bytes} (h : c.rest = x :: r) : c < c.advance 1 :=
  lt_advance Nat.one_pos (h ▸ Nat.succ_pos _)

theorem lt_tail {x : UInt8} {r : Bytes} (h : c.rest = x :: r) : c < ⟨c.index + 1, r⟩ :=
  ⟨1, Nat.one_pos, h ▸ Nat.succ_pos _, by rw [advance, h]; rfl⟩

theorem le_advance_takeWhile (c : Cursor) (p : UInt8 → Bool) :
    c ≤ c.advance (c.rest.takeWhile p).length :=
  le_advance (List.takeWhile_sublist p).length_le

theorem skipBlanks_eq_advance (c : Cursor) :
    c.skipBlanks = c.advance (c.rest.takeWhile Octet.isBlank).length := by
  have h : c.rest.dropWhile Octet.isBlank =
      c.rest.drop (c.rest.takeWhile Octet.isBlank).length := by
    induction c.rest with
    | nil => rfl
    | cons x r ih => by_cases hx : Octet.isBlank x <;> simp [hx, ih]
  rw [skipBlanks, advance, h]

theorem le_skipBlanks (c : Cursor) : c ≤ c.skipBlanks := by
  rw [skipBlanks_eq_advance]
  exact c.le_advance_takeWhile _

theorem skipBlanks_of_head {c : Cursor} {b : UInt8} {r : Bytes} (h : c.rest = b :: r)
    (hb : Octet.isBlank b = false) : c.skipBlanks = c := by
  obtain ⟨index, rest⟩ := c
  subst h
  simp [skipBlanks, hb]

theorem skipBlanks_of_nil {c : Cursor} (h : c.rest = []) : c.skipBlanks = c := by
  obtain ⟨index, rest⟩ := c
  subst h
  simp [skipBlanks]

/-- Behind the blanks there are no more of them. -/
theorem isBlank_of_skipBlanks {c : Cursor} {b : UInt8} {r : Bytes}
    (h : c.skipBlanks.rest = b :: r) : Octet.isBlank b = false := by
  have hp := List.head?_dropWhile_not Octet.isBlank c.rest
  rw [show c.rest.dropWhile Octet.isBlank = b :: r from h] at hp
  simpa using hp

@[simp] theorem skipBlanks_skipBlanks (c : Cursor) : c.skipBlanks.skipBlanks = c.skipBlanks := by
  rcases h : c.skipBlanks.rest with _ | ⟨b, r⟩
  · exact skipBlanks_of_nil h
  · exact skipBlanks_of_head h (isBlank_of_skipBlanks h)

end Cursor

end IndexFeed.Json
