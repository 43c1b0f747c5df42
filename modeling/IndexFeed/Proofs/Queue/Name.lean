import IndexFeed.Queue.Name

/-!
# Names in their normal form

`normalize` finds the one name that two spellings have in common: the slash in front may be left
out, and a name that has gone through it comes out as it is.
-/

set_option autoImplicit false

namespace IndexFeed.Queue

theorem normalize_eq_ok_iff {name n : String} :
    normalize name = .ok n ↔
      isBareName (bareName name.toList) = true ∧ n = String.ofList ('/' :: bareName name.toList) := by
  unfold normalize
  dsimp only
  split
  · next hbare => simp [hbare, eq_comm]
  · next hbare => simp [hbare]

/-- A name in its normal form is its own normal form. -/
theorem normalize_of_normalize {name n : String} (h : normalize name = .ok n) :
    normalize n = .ok n := by
  obtain ⟨hbare, rfl⟩ := normalize_eq_ok_iff.1 h
  have hname : bareName (String.ofList ('/' :: bareName name.toList)).toList =
      bareName name.toList := by
    rw [String.toList_ofList, bareName]
  rw [normalize_eq_ok_iff, hname]
  exact ⟨hbare, rfl⟩

end IndexFeed.Queue
