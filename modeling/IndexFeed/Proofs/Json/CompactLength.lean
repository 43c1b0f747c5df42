import Mathlib.Algebra.GroupWithZero.Nat
import IndexFeed.Proofs.Json.FloatText
import IndexFeed.Proofs.Json.Width

/-!
# The length of compact texts

How many octets the compact text of a value has, by the parts of the value: an array or an object has
one octet in front, and one behind each item or member, a comma or the closing bracket or brace.
-/

set_option autoImplicit false

namespace IndexFeed.Json

/-- The octets of the compact text of a value. -/
def octets (j : Json) : Nat := (Utf8.encodeChars j.chars).length

/-- The octets of a member, with the colon in it and the octet behind it. -/
def memberOctets (m : String × Json) : Nat := textWidth m.1 + octets m.2 + 4

/-- The octets of an item, with the octet behind it. -/
def itemOctets (j : Json) : Nat := octets j + 1

theorem length_one {c : Char} (h : c.utf8Size = 1) (cs : List Char) :
    (Utf8.encodeChars (c :: cs)).length = (Utf8.encodeChars cs).length + 1 := by
  rw [Utf8.encodeChars_cons, List.length_append, String.length_utf8EncodeChar, h, Nat.add_comm]

theorem length_stringChars (s : String) :
    (Utf8.encodeChars (stringChars s)).length = textWidth s + 2 := by
  rw [stringChars, length_one (by decide), Utf8.encodeChars_append, List.length_append,
    length_one (by decide)]
  rfl

theorem octets_string (s : String) : octets (.string s) = textWidth s + 2 := by
  rw [octets, chars, length_stringChars]

/-- Every character takes an octet inside a string. -/
theorem length_le_width (cs : List Char) : cs.length ≤ width cs := by
  have hpos : ∀ c, 0 < charWidth c := by
    intro c
    have hne : escapedChar c ≠ [] := by
      unfold escapedChar
      repeat' split
      all_goals exact List.cons_ne_nil _ _
    obtain ⟨d, ds, hcons⟩ := List.exists_cons_of_ne_nil hne
    have hfirst := d.utf8Size_pos
    rw [charWidth, hcons, Utf8.encodeChars_cons, List.length_append, String.length_utf8EncodeChar]
    omega
  induction cs with
  | nil => exact Nat.le_refl 0
  | cons c cs ih =>
    have hfirst := hpos c
    rw [List.length_cons, width_cons]
    omega

/-! ## Items and members -/

theorem length_itemChars (j : Json) (js : List Json) :
    (Utf8.encodeChars (itemChars (j :: js))).length + 1 = ((j :: js).map itemOctets).sum := by
  induction js generalizing j with
  | nil => rfl
  | cons k js ih =>
    have hrest := ih k
    rw [itemChars, Utf8.encodeChars_append, List.length_append, length_one (by decide),
      List.map_cons, List.sum_cons, ← hrest]
    simp only [itemOctets, octets]
    omega

theorem length_memberChars (m : String × Json) (ms : Object) :
    (Utf8.encodeChars (memberChars (m :: ms))).length + 1 = ((m :: ms).map memberOctets).sum := by
  induction ms generalizing m with
  | nil =>
    rw [memberChars, Utf8.encodeChars_append, List.length_append, length_stringChars,
      length_one (by decide)]
    simp only [List.map_cons, List.map_nil, List.sum_cons, List.sum_nil, memberOctets, octets]
    omega
  | cons n ms ih =>
    have hrest := ih n
    rw [memberChars, Utf8.encodeChars_append, List.length_append, length_stringChars,
      length_one (by decide), Utf8.encodeChars_append, List.length_append, length_one (by decide),
      List.map_cons, List.sum_cons, ← hrest]
    simp only [memberOctets, octets]
    omega

theorem octets_array {js : List Json} (h : js ≠ []) :
    octets (.array js) = (js.map itemOctets).sum + 1 := by
  obtain ⟨j, js, rfl⟩ := List.exists_cons_of_ne_nil h
  rw [octets, chars, length_one (by decide), Utf8.encodeChars_append, List.length_append,
    ← length_itemChars]
  rfl

theorem octets_object {ms : Object} (h : ms ≠ []) :
    octets (.object ms) = (ms.map memberOctets).sum + 1 := by
  obtain ⟨m, ms, rfl⟩ := List.exists_cons_of_ne_nil h
  rw [octets, chars, length_one (by decide), Utf8.encodeChars_append, List.length_append,
    ← length_memberChars]
  rfl

/-! ## Numbers -/

/-- A number counts up to no less than it has digits, except that zero has one. -/
theorem octets_nat_le (n : Nat) : octets (.nat n) ≤ max n 1 := by
  have hdigits : ∀ k, (Utf8.encodeChars (Decimal.chars k)).length ≤ max k 1 := by
    intro k
    rw [Utf8.length_encodeChars fun c hc => (octet_of_isDigit (Decimal.isDigit_of_mem_chars hc)).1]
    refine Decimal.length_chars_le (by omega) ?_
    exact Nat.lt_of_lt_of_le (Nat.lt_pow_self (by decide))
      (Nat.pow_le_pow_right (by decide) (Nat.le_max_left k 1))
  have hmin := hdigits (min n 0xffffffffffffffff)
  simp only [octets, nat, chars, Number.chars, integerChars]
  split
  · omega
  · exact Nat.le_trans hmin (by omega)

end IndexFeed.Json
