import IndexFeed.Json.Cursor

/-!
# Stretches of text

`c.Takes p d` says that the octets `p` lead from the cursor `c` to the cursor `d`.  A decoder is
then sound for a grammar if what it takes is in the grammar, and complete if it takes everything
that is, whatever the cursor it starts from and whatever comes behind.
-/

set_option autoImplicit false

namespace IndexFeed.Json.Cursor

variable {c d e : Cursor} {p q : Bytes}

/-- The octets between two cursors. -/
def Takes (c : Cursor) (p : Bytes) (d : Cursor) : Prop :=
  c.rest = p ++ d.rest ∧ d.index = c.index + p.length

namespace Takes

protected theorem refl (c : Cursor) : c.Takes [] c := ⟨rfl, rfl⟩

protected theorem trans (h : c.Takes p d) (k : d.Takes q e) : c.Takes (p ++ q) e := by
  obtain ⟨hr, hi⟩ := h
  obtain ⟨kr, ki⟩ := k
  refine ⟨by rw [hr, kr, List.append_assoc], ?_⟩
  rw [ki, hi, List.length_append]
  omega

/-- A stretch can be cut anywhere. -/
protected theorem split (h : c.Takes (p ++ q) e) : ∃ d, c.Takes p d ∧ d.Takes q e := by
  obtain ⟨hr, hi⟩ := h
  refine ⟨⟨c.index + p.length, q ++ e.rest⟩, ⟨by rw [hr, List.append_assoc], rfl⟩, rfl, ?_⟩
  rw [hi, List.length_append]
  exact (Nat.add_assoc ..).symm

/-- The octets taken say where they lead. -/
theorem eq_advance (h : c.Takes p d) : d = c.advance p.length := by
  obtain ⟨index, rest⟩ := d
  obtain ⟨hr, rfl⟩ := h
  simp only [advance, hr, List.drop_left]

protected theorem unique (h : c.Takes p d) (k : c.Takes p e) : d = e :=
  h.eq_advance.trans k.eq_advance.symm

theorem of_start {text : Bytes} (h : (start text).Takes p d) : text = p ++ d.rest := h.1

theorem length_of_start {text : Bytes} (h : (start text).Takes p d) : p.length = d.index :=
  (Nat.zero_add _).symm.trans h.2.symm

theorem take_of_start {text : Bytes} (h : (start text).Takes p d) : text.take d.index = p := by
  rw [h.of_start, ← h.length_of_start, List.take_left]

/-- One octet. -/
theorem one {x : UInt8} {r : Bytes} (h : c.rest = x :: r) : c.Takes [x] (c.advance 1) := by
  refine ⟨?_, rfl⟩
  simp only [advance, h, List.drop_succ_cons, List.drop_zero, List.singleton_append]

theorem tail {x : UInt8} {r : Bytes} (h : c.rest = x :: r) : c.Takes [x] ⟨c.index + 1, r⟩ :=
  ⟨h, rfl⟩

theorem rest_of_cons {x : UInt8} (h : c.Takes (x :: p) d) : c.rest = x :: (p ++ d.rest) := h.1

/-- Behind the first octet. -/
theorem tail_of_cons {x : UInt8} (h : c.Takes (x :: p) d) :
    Takes ⟨c.index + 1, p ++ d.rest⟩ p d :=
  ⟨rfl, by rw [h.2, List.length_cons, Nat.add_assoc, Nat.add_comm 1]⟩

theorem advance_of_cons {x : UInt8} (h : c.Takes (x :: p) d) : (c.advance 1).Takes p d := by
  have hr := h.rest_of_cons
  have ha : c.advance 1 = ⟨c.index + 1, p ++ d.rest⟩ := by simp [advance, hr]
  rw [ha]
  exact h.tail_of_cons

theorem cons {x : UInt8} (h : c.rest = x :: e.rest) (hi : e.index = c.index + 1)
    (k : e.Takes p d) : c.Takes (x :: p) d :=
  Takes.trans (p := [x]) ⟨h, hi⟩ k

theorem of_prefix (h : p <+: c.rest) : c.Takes p (c.advance p.length) := by
  obtain ⟨r, hr⟩ := h
  refine ⟨?_, rfl⟩
  rw [advance, ← hr, List.drop_left]

/-- The octets in front of the first one that fails a test. -/
theorem takeWhile (c : Cursor) (f : UInt8 → Bool) :
    c.Takes (c.rest.takeWhile f) (c.advance (c.rest.takeWhile f).length) :=
  of_prefix (List.takeWhile_prefix f)

end Takes

/-! ## Blanks -/

/-- A text of nothing but blanks. -/
def Blanks (p : Bytes) : Prop := ∀ b ∈ p, Octet.isBlank b = true

/-- The next octet, if there is one, is no blank. -/
def Solid (c : Cursor) : Prop := ∀ b r, c.rest = b :: r → Octet.isBlank b = false

theorem solid_skipBlanks (c : Cursor) : c.skipBlanks.Solid := fun _ _ => isBlank_of_skipBlanks

theorem solid_of_cons {b : UInt8} {r : Bytes} (h : c.rest = b :: r)
    (hb : Octet.isBlank b = false) : c.Solid := by
  intro b' r' h'
  rw [h] at h'
  obtain ⟨rfl, -⟩ := List.cons.inj h'
  exact hb

theorem skipBlanks_of_solid (h : c.Solid) : c.skipBlanks = c := by
  cases hr : c.rest with
  | nil => exact skipBlanks_of_nil hr
  | cons b r => exact skipBlanks_of_head hr (h b r hr)

/-- The blanks at a cursor lead to a cursor without blanks. -/
theorem exists_blanks (c : Cursor) : ∃ p, Blanks p ∧ c.Takes p c.skipBlanks := by
  refine ⟨c.rest.takeWhile Octet.isBlank, List.all_eq_true.1 List.all_takeWhile, ?_⟩
  rw [skipBlanks_eq_advance]
  exact Takes.takeWhile c Octet.isBlank

/-- Blanks in front of something else are skipped, all of them and no more. -/
theorem skipBlanks_of_takes (hb : Blanks p) (h : c.Takes p d) (hd : d.Solid) :
    c.skipBlanks = d := by
  induction p generalizing c with
  | nil =>
    rw [Takes.unique h (Takes.refl c)]
    exact skipBlanks_of_solid (Takes.unique h (Takes.refl c) ▸ hd)
  | cons b p ih =>
    have hr := h.rest_of_cons
    have hskip : c.skipBlanks = (⟨c.index + 1, p ++ d.rest⟩ : Cursor).skipBlanks := by
      simp only [skipBlanks, hr, List.takeWhile_cons, List.dropWhile_cons, hb b List.mem_cons_self,
        if_true, List.length_cons, Cursor.mk.injEq, and_true]
      omega
    rw [hskip]
    exact ih (fun x hx => hb x (List.mem_cons_of_mem b hx)) h.tail_of_cons

theorem rest_skipBlanks {a r : Bytes} {b : UInt8} (ha : Blanks a) (h : c.rest = a ++ b :: r)
    (hb : Octet.isBlank b = false) : c.skipBlanks.rest = b :: r := by
  have ht : c.Takes a ⟨c.index + a.length, b :: r⟩ := ⟨h, rfl⟩
  rw [skipBlanks_of_takes ha ht (solid_of_cons rfl hb)]

end IndexFeed.Json.Cursor
