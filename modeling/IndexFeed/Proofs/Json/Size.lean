import IndexFeed.Proofs.Json.Soundness
import IndexFeed.Proofs.Text.Width

/-!
# The size of values

`Json.size` counts the values in a value and the octets of its texts.  A value is no larger than the
text that writes it, and so no larger than what a decoder has taken to read it.
-/

set_option autoImplicit false

namespace IndexFeed.Json

/-! ## Sizes -/

mutual

/-- The octets of the texts in a value, and one for each value in it. -/
def size : Json → Nat
  | .null | .bool _ | .number _ => 1
  | .string s => (Utf8.encode s).length + 1
  | .array items => itemSizes items + 1
  | .object members => memberSizes members + 1

/-- The sizes of items together. -/
def itemSizes : List Json → Nat
  | [] => 0
  | j :: r => size j + itemSizes r

/-- The sizes of members together, keys with them. -/
def memberSizes : List (String × Json) → Nat
  | [] => 0
  | (k, j) :: r => (Utf8.encode k).length + size j + memberSizes r

end

theorem size_pos (j : Json) : 0 < j.size := by
  cases j <;> exact Nat.succ_pos _

/-- An array has no more items than its size says. -/
theorem length_le_itemSizes (js : List Json) : js.length ≤ itemSizes js := by
  induction js with
  | nil => exact Nat.le_refl 0
  | cons j js ih =>
    have hpos := j.size_pos
    rw [List.length_cons, itemSizes]
    omega

theorem size_le_of_mem {j : Json} {js : List Json} (h : j ∈ js) : j.size ≤ itemSizes js := by
  induction js with
  | nil => cases h
  | cons i js ih =>
    rw [itemSizes]
    rcases List.mem_cons.1 h with rfl | h
    · exact Nat.le_add_right _ _
    · exact Nat.le_trans (ih h) (Nat.le_add_left _ _)

/-! Lists are gathered in reverse. -/

theorem itemSizes_append (is js : List Json) :
    itemSizes (is ++ js) = itemSizes is + itemSizes js := by
  induction is with
  | nil => exact (Nat.zero_add _).symm
  | cons i is ih => rw [List.cons_append, itemSizes, ih, itemSizes, Nat.add_assoc]

@[simp] theorem itemSizes_reverse (js : List Json) : itemSizes js.reverse = itemSizes js := by
  induction js with
  | nil => rfl
  | cons j js ih =>
    rw [List.reverse_cons, itemSizes_append, ih, itemSizes, itemSizes, itemSizes]
    omega

theorem memberSizes_append (ms ns : Object) :
    memberSizes (ms ++ ns) = memberSizes ms + memberSizes ns := by
  induction ms with
  | nil => exact (Nat.zero_add _).symm
  | cons m ms ih => simp only [List.cons_append, memberSizes, ih, Nat.add_assoc]

@[simp] theorem memberSizes_reverse (ms : Object) : memberSizes ms.reverse = memberSizes ms := by
  induction ms with
  | nil => rfl
  | cons m ms ih =>
    rw [List.reverse_cons, memberSizes_append, ih, memberSizes, memberSizes, memberSizes]
    omega

/-! ## Texts -/

theorem length_scalarOctets_le (n : Nat) : (scalarOctets n).length ≤ 4 := by
  rw [scalarOctets, String.length_utf8EncodeChar]
  exact Char.utf8Size_le_four _

theorem Piece.length_le {p bs : Bytes} (h : Piece p bs) : bs.length ≤ p.length := by
  cases h with
  | plain => exact Nat.le_refl 1
  | simple => exact Nat.le_succ 1
  | numbered => exact Nat.le_trans (length_scalarOctets_le _) (by decide : 4 ≤ 6)
  | pair => exact Nat.le_trans (length_scalarOctets_le _) (by decide : 4 ≤ 12)

theorem Pieces.length_le {p bs : Bytes} (h : Pieces p bs) : bs.length ≤ p.length := by
  induction h with
  | nil => exact Nat.le_refl 0
  | cons hp _ ih =>
    rw [List.length_append, List.length_append]
    exact Nat.add_le_add hp.length_le ih

/-- A string takes its octets and two quotes at least. -/
theorem StringWritten.length_le {s : String} {p : Bytes} (h : StringWritten s p) :
    (Utf8.encode s).length + 2 ≤ p.length := by
  obtain ⟨q, bs, rfl, hq, hs⟩ := h
  have hpieces := hq.length_le
  have htext := Utf8.length_encode_le hs
  rw [List.length_cons, List.length_append, List.length_singleton]
  omega

theorem Numeral.WellFormed.text_pos {x : Numeral} (hx : x.WellFormed) : 0 < x.text.length := by
  rw [Numeral.text, List.length_append]
  exact Nat.add_pos_left (List.length_pos_iff.2 hx.whole.1) _

theorem NumberWritten.length_pos {x : Number} {p : Bytes} (h : NumberWritten x p) :
    0 < p.length := by
  cases h with
  | plain hx => exact hx.text_pos
  | negative => exact Nat.succ_pos _

/-- The size of what a text can write. -/
def Form.size : Form → Nat
  | .value j => j.size
  | .items js => itemSizes js
  | .members ms => memberSizes ms

/-- What is written is no larger than its text. -/
theorem Written.size_le {n : Nat} {f : Form} {p : Bytes} (h : Written n f p) :
    f.size ≤ p.length := by
  induction h with
  | null | truth | falsity => decide
  | number hx => exact hx.length_pos
  | string hs =>
    have := hs.length_le
    rw [Form.size, size]
    omega
  | emptyArray => exact Nat.succ_le_succ (Nat.zero_le _)
  | emptyObject => exact Nat.succ_le_succ (Nat.zero_le _)
  | array _ ih | object _ ih =>
    dsimp only [Form.size, size] at *
    rw [List.length_cons, List.length_append]
    omega
  | lastItem _ _ _ ih =>
    dsimp only [Form.size, itemSizes] at *
    simp only [List.length_append]
    omega
  | item _ _ _ _ ih ih' =>
    dsimp only [Form.size, itemSizes] at *
    simp only [List.length_append, List.length_cons]
    omega
  | lastMember _ hk _ _ _ _ ih =>
    have := hk.length_le
    dsimp only [Form.size, memberSizes] at *
    simp only [List.length_append, List.length_cons]
    omega
  | member _ hk _ _ _ _ _ ih ih' =>
    have := hk.length_le
    dsimp only [Form.size, memberSizes] at *
    simp only [List.length_append, List.length_cons]
    omega

/-! ## Decoders -/

variable {c d : Cursor}

theorem Cursor.Takes.length {p : Bytes} (h : c.Takes p d) :
    c.rest.length = p.length + d.rest.length := by
  rw [h.1, List.length_append]

/-- A value is no larger than what has been taken to read it. -/
theorem size_le_of_value {n : Nat} {j : Json} (h : (Decoder.value n).run c = .ok (j, d)) :
    j.size + d.rest.length ≤ c.rest.length := by
  obtain ⟨p, ht, hw⟩ := value_sound n h
  have hsize := hw.size_le
  have hlength := ht.length
  have hblanks := Cursor.length_rest_le c.le_skipBlanks
  rw [Form.size] at hsize
  omega

/-- So is the text of a string. -/
theorem length_le_of_quoted {s : String} (h : Decoder.quoted.run c = .ok (s, d)) :
    (Utf8.encode s).length + d.rest.length ≤ c.rest.length := by
  simp only [Decoder.quoted, Decoder.afterHead] at h
  split at h
  · cases h
  · next b r hr =>
    obtain ⟨q, bs, ht, hq, hs⟩ := readString_eq_ok_iff.1 h
    have hlength := ht.length
    have hpieces := hq.length_le
    have htext := Utf8.length_encode_le hs
    dsimp only at hlength
    rw [hr, List.length_cons]
    rw [List.length_append, List.length_singleton] at hlength
    omega

end IndexFeed.Json
