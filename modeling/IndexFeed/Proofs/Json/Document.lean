import IndexFeed.Proofs.Json.Completeness

/-!
# Whole texts

A whole text is read if and only if it is a value between blanks, and the value it gives is the
one that is written there.
-/

set_option autoImplicit false

namespace IndexFeed.Json

open Cursor (Blanks)

variable {c d : Cursor} {n : Nat}

theorem skipBlanks_of_blanks (h : Blanks c.rest) : c.skipBlanks.rest = [] := by
  have hend : c.Takes c.rest ⟨c.index + c.rest.length, []⟩ := ⟨by simp, rfl⟩
  rw [Cursor.skipBlanks_of_takes h hend (by intro b r hr; cases hr)]

theorem blanks_of_skipBlanks (h : c.skipBlanks.rest = []) : Blanks c.rest := by
  obtain ⟨p, hp, ht⟩ := c.exists_blanks
  rw [ht.1, h, List.append_nil]
  exact hp

theorem finish_eq_ok_iff : finish c = .ok () ↔ Blanks c.rest := by
  simp only [finish, List.isEmpty_iff]
  constructor
  · intro h
    split at h
    · next hnil => exact blanks_of_skipBlanks hnil
    · cases h
  · intro h
    rw [if_pos (skipBlanks_of_blanks h)]

theorem Decoder.parse_eq_ok_iff {α : Type} {D : Decoder α} {text : Bytes} {a : α} :
    D.parse text = .ok a ↔ ∃ c, D.run (.start text) = .ok (a, c) ∧ Blanks c.rest := by
  unfold Decoder.parse
  constructor
  · intro h
    split at h
    · cases h
    · next a' c hrun =>
      split at h
      · cases h
      · next hfinish =>
        cases h
        exact ⟨c, hrun, finish_eq_ok_iff.1 hfinish⟩
  · rintro ⟨c, hrun, hblanks⟩
    rw [hrun]
    dsimp only
    rw [finish_eq_ok_iff.2 hblanks]

/-- A text that writes a value, with blanks on either side of it. -/
def Document (n : Nat) (j : Json) (text : Bytes) : Prop :=
  ∃ a p b, Blanks a ∧ Written n (.value j) p ∧ Blanks b ∧ text = a ++ (p ++ b)

/-- A whole text is read as a value if and only if it writes that value. -/
theorem parse_value_eq_ok_iff {text : Bytes} {j : Json} :
    (Decoder.value n).parse text = .ok j ↔ Document n j text := by
  rw [Decoder.parse_eq_ok_iff]
  constructor
  · rintro ⟨c, hrun, hblanks⟩
    obtain ⟨p, hp, hw⟩ := value_sound n hrun
    obtain ⟨a, ha, hta⟩ := (Cursor.start text).exists_blanks
    refine ⟨a, p, c.rest, ha, hw, hblanks, ?_⟩
    rw [← List.append_assoc]
    exact (hta.trans hp).of_start
  · rintro ⟨a, p, b, ha, hw, hb, rfl⟩
    let e : Cursor := ⟨(a ++ p).length, b⟩
    have ht : (Cursor.start (a ++ (p ++ b))).Takes (a ++ p) e := by
      refine ⟨?_, ?_⟩
      · simp [Cursor.start, e]
      · simp [Cursor.start, e]
    have he : e.Apart := by
      have hend : e.Takes b ⟨e.index + b.length, []⟩ := ⟨by simp [e], rfl⟩
      exact apart_of_blanks hb hend (apart_of_nil rfl)
    exact ⟨e, value_complete hw (hw.skipBlanks ha ht) he, hb⟩

/-- The value that a decoder with a function behind it gives for a whole text. -/
theorem parse_map_eq_ok_iff {α β : Type} {D : Decoder α} {f : α → β} {text : Bytes} {b : β} :
    (D.map f).parse text = .ok b ↔ ∃ a, D.parse text = .ok a ∧ f a = b := by
  simp only [Decoder.parse_eq_ok_iff, Decoder.map_eq_ok_iff]
  constructor
  · rintro ⟨c, ⟨a, hrun, hf⟩, hb⟩
    exact ⟨a, ⟨c, hrun, hb⟩, hf⟩
  · rintro ⟨a, ⟨c, hrun, hb⟩, hf⟩
    exact ⟨c, ⟨a, hrun, hf⟩, hb⟩

end IndexFeed.Json
