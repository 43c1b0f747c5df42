import IndexFeed.Json.Shape
import IndexFeed.Proofs.Results

/-!
# Results and misfits

What accepts a list of values does so item by item and stops at the first misfit.  The lemmas here tell
the items from the whole.
-/

set_option autoImplicit false

namespace IndexFeed.Json

variable {α : Type} {m : Misfit} {j : Json} {js : List Json} {f : Json → Except Misfit α}

theorem mapM_cons_eq_ok_iff {as : List α} : (j :: js).mapM f = .ok as ↔
    ∃ a as', f j = .ok a ∧ js.mapM f = .ok as' ∧ a :: as' = as := by
  rw [List.mapM_cons]
  constructor
  · intro h
    obtain ⟨a, ha, hrest⟩ := bind_eq_ok_iff.1 h
    obtain ⟨as', has', hpure⟩ := bind_eq_ok_iff.1 hrest
    exact ⟨a, as', ha, has', Except.ok.inj hpure⟩
  · rintro ⟨a, as', ha, has', rfl⟩
    exact bind_eq_ok_iff.2 ⟨a, ha, bind_eq_ok_iff.2 ⟨as', has', rfl⟩⟩

theorem mapM_cons_eq_error_iff : (j :: js).mapM f = .error m ↔
    f j = .error m ∨ ∃ a, f j = .ok a ∧ js.mapM f = .error m := by
  rw [List.mapM_cons]
  refine bind_eq_error_iff.trans (or_congr_right (exists_congr fun a => and_congr_right fun _ => ?_))
  constructor
  · intro h
    rcases bind_eq_error_iff.1 h with h | ⟨as, -, h⟩
    · exact h
    · cases h
  · exact fun h => bind_eq_error_iff.2 (.inl h)

end IndexFeed.Json
