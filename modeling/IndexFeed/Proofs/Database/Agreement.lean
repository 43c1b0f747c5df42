import IndexFeed.Proofs.Database.Framing
import IndexFeed.Proofs.Json.Nesting
import IndexFeed.Queue.Store

/-!
# The reader and the decoder of whole texts

The reader takes a document apart by its framing and decodes one element at a time; the decoder of
whole texts reads the same document as one value.  The two agree on every document, up to one level
of brackets: the decoder counts the root array, and the reader does not.
-/

set_option autoImplicit false

namespace IndexFeed.Database

open Json (Object Document deepest normalMembers nesting)

theorem decode_eq_ok_iff {α : Type} {D : Json.Decoder α} {message : Bytes} {a : α} :
    Queue.Store.decode D message = .ok a ↔ D.parse message = .ok a := by
  unfold Queue.Store.decode
  split
  · next a' h => rw [h, Except.ok.injEq, Except.ok.injEq]
  · next e h =>
    rw [h]
    split <;> simp

/-- Decoding a whole text gives the normal form of the value that is written there. -/
theorem decode_any_eq_ok_iff {d : Bytes} {j : Json} :
    Queue.Store.decode Json.Shape.any.decode d = .ok j ↔
      ∃ k, Document deepest k d ∧ k.normal = j := by
  rw [decode_eq_ok_iff, Json.Shape.any, Json.parse_map_eq_ok_iff]
  simp only [Json.parse_value_eq_ok_iff]

/-- The normal forms of values are objects only if the values are. -/
theorem exists_of_normalItems {js : List Json} {os : List Object}
    (h : Json.normalItems js = itemsOf os) :
    ∃ raw, js = itemsOf raw ∧ os = raw.map normalMembers := by
  induction js generalizing os with
  | nil =>
    rw [Json.normalItems] at h
    obtain rfl := List.map_eq_nil_iff.1 h.symm
    exact ⟨[], rfl, rfl⟩
  | cons j js ih =>
    rw [Json.normalItems] at h
    obtain ⟨o, os', rfl, ho, hos⟩ := List.map_eq_cons_iff.1 h.symm
    obtain ⟨raw, rfl, rfl⟩ := ih hos.symm
    cases j with
    | object ms =>
      rw [Json.normal, Json.object.injEq] at ho
      exact ⟨ms :: raw, rfl, by rw [List.map_cons, ho]⟩
    | null | bool | number | string | array => cases ho

theorem normalItems_itemsOf (raw : List Object) :
    Json.normalItems (itemsOf raw) = itemsOf (raw.map normalMembers) := by
  induction raw with
  | nil => rfl
  | cons ms raw ih =>
    rw [List.map_cons, itemsOf, itemsOf, List.map_cons, List.map_cons, Json.normalItems,
      Json.normal]
    exact congrArg _ ih

/-- How deep a document nests, and that it needs just as much room for brackets. -/
theorem document_tight {n : Nat} {j : Json} {d : Bytes} (h : Document n j d) :
    nesting d ≤ n ∧ Document (nesting d) j d := by
  obtain ⟨a, p, b, ha, hw, hb, rfl⟩ := h
  obtain ⟨w, hle, hnests, hwritten⟩ := hw.tight
  have hdocument := (Json.nests_blanks ha).flat_append (hnests.append_flat (Json.nests_blanks hb))
  rw [hdocument.nesting_eq]
  exact ⟨hle, a, p, b, ha, hwritten, hb, rfl⟩

theorem nesting_le_of_document {n : Nat} {j : Json} {d : Bytes} (h : Document n j d) :
    nesting d ≤ n := (document_tight h).1

theorem document_of_nesting {m n : Nat} {j : Json} {d : Bytes} (h : Document n j d)
    (hd : nesting d ≤ m) : Document m j d := by
  obtain ⟨-, a, p, b, ha, hw, hb, hp⟩ := document_tight h
  exact ⟨a, p, b, ha, hw.mono hd, hb, hp⟩

namespace Reader

/-- A document that has been read to its end nests at most one level beyond what the decoder of
whole texts allows. -/
theorem nesting_le_of_finished {d : Bytes} {capacity : Nat}
    (h : (Reader.run .keepAll { source := .ofBytes d capacity } []).1 = .ok .finished) :
    nesting d ≤ deepest + 1 := by
  obtain ⟨raw, hdocument, -⟩ := delivery_finished_iff.1 ⟨h, rfl⟩
  exact nesting_le_of_document hdocument

/-- **The framing accepts what the decoder accepts.** A whole text decodes to an array of objects if
and only if a run that never halts reads it to its end, having delivered exactly these objects in
order, and the text nests no deeper than the decoder goes.  One level of the nesting is the root
array, so that only a document is left out where an element goes to the very last level. -/
theorem decode_eq_array_iff_run_finished (d : Bytes) (capacity : Nat) (os : List Object) :
    Queue.Store.decode Json.Shape.any.decode d = .ok (.array (os.map Json.object)) ↔
      (Reader.run .keepAll { source := .ofBytes d capacity } []).1 = .ok .finished ∧
        (Reader.run .keepAll { source := .ofBytes d capacity } []).2.2 = os ∧
        nesting d ≤ deepest := by
  rw [decode_any_eq_ok_iff]
  constructor
  · rintro ⟨k, hdocument, hnormal⟩
    have hnesting := nesting_le_of_document hdocument
    cases k with
    | array js =>
      rw [Json.normal, Json.array.injEq] at hnormal
      obtain ⟨raw, rfl, rfl⟩ := exists_of_normalItems hnormal
      obtain ⟨hfinished, hos⟩ := delivery_finished_iff.2
        ⟨raw, document_of_nesting hdocument (Nat.le_succ_of_le hnesting), rfl⟩
      exact ⟨hfinished, hos, hnesting⟩
    | null | bool | number | string | object => cases hnormal
  · rintro ⟨hfinished, hos, hnesting⟩
    obtain ⟨raw, hdocument, rfl⟩ := delivery_finished_iff.1 ⟨hfinished, hos⟩
    refine ⟨.array (itemsOf raw), document_of_nesting hdocument hnesting, ?_⟩
    rw [Json.normal, normalItems_itemsOf]
    rfl

end Reader

end IndexFeed.Database
