/-!
# Results

What is done part by part stops at the first part that fails.  The lemmas here tell the parts of such a
result from the whole, whatever the failures are.
-/

set_option autoImplicit false

namespace IndexFeed

variable {ε α β : Type} {r : Except ε α} {m : ε}

theorem map_eq_ok_iff {f : α → β} {b : β} : r.map f = .ok b ↔ ∃ a, r = .ok a ∧ f a = b := by
  cases r with
  | error m => exact ⟨nofun, nofun⟩
  | ok a =>
    constructor
    · exact fun h => ⟨a, rfl, Except.ok.inj h⟩
    · rintro ⟨a', h, rfl⟩
      cases h
      rfl

theorem map_eq_error_iff {f : α → β} : r.map f = .error m ↔ r = .error m := by
  cases r with
  | error m' =>
    constructor
    · exact fun h => congrArg Except.error (Except.error.inj h)
    · intro h
      cases h
      rfl
  | ok a => exact ⟨nofun, nofun⟩

theorem bind_eq_ok_iff {f : α → Except ε β} {b : β} :
    r.bind f = .ok b ↔ ∃ a, r = .ok a ∧ f a = .ok b := by
  cases r with
  | error m => exact ⟨nofun, nofun⟩
  | ok a =>
    constructor
    · exact fun h => ⟨a, rfl, h⟩
    · rintro ⟨a', h, hb⟩
      cases h
      exact hb

theorem bind_eq_error_iff {f : α → Except ε β} :
    r.bind f = .error m ↔ r = .error m ∨ ∃ a, r = .ok a ∧ f a = .error m := by
  cases r with
  | error m' =>
    refine ⟨fun h => .inl (congrArg Except.error (Except.error.inj h)), ?_⟩
    rintro (h | ⟨a, h, -⟩)
    · cases h
      rfl
    · cases h
  | ok a =>
    refine ⟨fun h => .inr ⟨a, rfl, h⟩, ?_⟩
    rintro (h | ⟨a', h, hm⟩)
    · cases h
    · cases h
      exact hm

end IndexFeed
