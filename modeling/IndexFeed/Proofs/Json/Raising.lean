import IndexFeed.Json.Shape
import IndexFeed.Proofs.Json.TextEnd
import IndexFeed.Proofs.Json.Width

/-!
# What faults quote

A text that is no JSON is told by one of finitely many causes, which quote nothing.  All readers raise
such causes and no others; misfits, which quote the text, come from the shapes that are laid over them.
-/

set_option autoImplicit false

namespace IndexFeed.Json

variable {α : Type} {n : Nat} {c d : Cursor} {f : Fault}

/-! ## Faults -/

namespace Fault

/-- The fault is no misfit. -/
def Plain (f : Fault) : Prop := f.cause.category ≠ .misshapen

/-- If the fault is a misfit, it quotes at most `n` octets and lies on one of the paths. -/
def Quotes (n : Nat) (ps : List (List Segment)) (f : Fault) : Prop :=
  ∀ m, f.cause = .misfit m → m.Within n ∧ f.path ∈ ps

theorem plain_ahead (c : Cursor) {cause : Cause} (h : cause.category ≠ .misshapen) :
    (c.ahead cause).Plain := h

variable {ps qs : List (List Segment)} {m : Misfit}

theorem Plain.quotes (h : f.Plain) (n : Nat) (ps : List (List Segment)) : f.Quotes n ps := by
  intro m hm
  rw [Plain, hm] at h
  exact absurd rfl h

/-- A fault that lies on no path at all is no misfit. -/
theorem Quotes.plain (h : f.Quotes n []) : f.Plain := by
  intro hcategory
  cases hcause : f.cause with
  | misfit m => cases (h m hcause).2
  | _ => rw [hcause] at hcategory; cases hcategory

theorem quotes_misfit (c : Cursor) (hm : m.Within n) (hp : [] ∈ ps) : (c.misfit m).Quotes n ps := by
  intro m' hm'
  cases hm'
  exact ⟨hm, hp⟩

theorem Quotes.mono (h : f.Quotes n ps) (hps : ∀ p ∈ ps, p ∈ qs) : f.Quotes n qs :=
  fun m hm => ⟨(h m hm).1, hps _ (h m hm).2⟩

theorem Quotes.under (h : f.Quotes n ps) (s : Segment) :
    (f.under s).Quotes n (ps.map (s :: ·)) :=
  fun m hm => ⟨(h m hm).1, List.mem_map_of_mem (h m hm).2⟩

theorem settle_spec (f : Fault) : f.settle.cause = f.cause ∧ f.settle.path = f.path := by
  unfold settle
  split
  · exact ⟨rfl, rfl⟩
  · exact ⟨rfl, rfl⟩

theorem leaveArray_spec (f : Fault) : f.leaveArray.cause = f.cause ∧ f.leaveArray.path = f.path := by
  unfold leaveArray
  dsimp only
  split
  · split
    · exact ⟨rfl, rfl⟩
    · split
      · exact ⟨rfl, rfl⟩
      · exact ⟨rfl, rfl⟩
  · exact ⟨rfl, rfl⟩

theorem leaveObject_spec (f : Fault) :
    f.leaveObject.cause = f.cause ∧ f.leaveObject.path = f.path := by
  unfold leaveObject
  dsimp only
  split
  · split
    · exact ⟨rfl, rfl⟩
    · exact ⟨rfl, rfl⟩
  · exact ⟨rfl, rfl⟩

/-- Changes of the place alone. -/
theorem Quotes.of_spec {g : Fault} (h : f.Quotes n ps)
    (hg : g.cause = f.cause ∧ g.path = f.path) : g.Quotes n ps := by
  intro m hm
  rw [hg.2]
  exact h m (hg.1.symm.trans hm)

end Fault

open Fault (plain_ahead)

/-- What a reader of JSON text raises is no misfit. -/
theorem Raised.plain (h : Raised c f) : f.Plain := by
  cases h with
  | head _ _ hcause | atEnd _ _ hcause | behind _ _ hcause | behindEnd _ _ hcause =>
    intro hmisfit
    exact absurd (hcause.symm.trans hmisfit) (by decide)
  | outOfRange =>
    intro hmisfit
    cases hmisfit

theorem closeArray_plain (h : closeArray c = .error f) : f.Plain := by
  obtain ⟨d, cause, hcause, rfl⟩ := closeArray_ahead h
  exact plain_ahead d hcause

theorem closeObject_plain (h : closeObject c = .error f) : f.Plain := by
  obtain ⟨d, cause, hcause, rfl⟩ := closeObject_ahead h
  exact plain_ahead d hcause

theorem finish_plain (h : finish c = .error f) : f.Plain := by
  unfold finish at h
  dsimp only at h
  split at h
  · cases h
  · cases h
    exact plain_ahead _ (by decide)

namespace Decoder

theorem literal_value {word : Bytes} {a x : α} (h : (literal word a).run c = .ok (x, d)) :
    x = a := by
  simp only [literal, afterHead] at h
  split at h
  · cases h
  · split at h
    · cases h
      rfl
    · cases h

end Decoder

end IndexFeed.Json
