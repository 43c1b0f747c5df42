import IndexFeed.Proofs.Json.Results
import IndexFeed.Proofs.Json.Size
import IndexFeed.Proofs.Json.Width

/-!
# What shapes refuse

A shape that a value does not have says so, and names the value or counts its items.  For a value of
size `n` the message quotes at most `n` octets and is brief otherwise.  Records take that over from the
shapes of their fields.
-/

set_option autoImplicit false

namespace IndexFeed.Json

variable {α β σ : Type} {n : Nat} {j : Json} {m : Misfit}

theorem Found.within_of (hj : j.size ≤ n) : (Found.of j).Within n := by
  cases j with
  | string s => exact Nat.le_of_succ_le hj
  | number x => exact Found.within_ofNumber n x
  | null | bool _ | array _ | object _ => trivial

namespace Shape

/-- What the shape refuses of a value of size at most `n` quotes at most `n` octets. -/
def RefusesWithin (s : Shape α) (n : Nat) : Prop :=
  ∀ j m, j.size ≤ n → s.accept j = .error m → m.Within n

variable {s : Shape α}

theorem RefusesWithin.map (h : s.RefusesWithin n) (f : α → β) : (s.map f).RefusesWithin n :=
  fun j m hj hm => h j m hj (map_eq_error_iff.1 hm)

theorem refusesWithin_text : text.RefusesWithin n := by
  intro j m hj hm
  cases j with
  | string s => cases hm
  | _ =>
    cases hm
    exact ⟨Found.within_of hj, by decide +kernel⟩

theorem refusesWithin_number {expected : String} {f : Number → Except Misfit α}
    (hexpected : Brief expected) (hf : ∀ x m, f x = .error m → m.Within n) :
    (number expected f).RefusesWithin n := by
  intro j m hj hm
  cases j with
  | number x => exact hf x m hm
  | _ =>
    cases hm
    exact ⟨Found.within_of hj, hexpected⟩

theorem refusesWithin_integer {expected : String} {least most : Int} (hexpected : Brief expected) :
    (integer expected least most).RefusesWithin n := by
  refine refusesWithin_number hexpected fun x m hm => ?_
  cases x with
  | integer i hleast hmost =>
    dsimp only at hm
    split at hm
    · cases hm
    · cases hm
      exact ⟨Found.within_ofNumber n (.integer i hleast hmost), hexpected⟩
  | float x =>
    cases hm
    exact ⟨trivial, hexpected⟩

theorem refusesWithin_natural {expected : String} {bits : Nat} (hexpected : Brief expected) :
    (natural expected bits).RefusesWithin n :=
  (refusesWithin_integer hexpected).map _

theorem RefusesWithin.optional (h : s.RefusesWithin n) : s.optional.RefusesWithin n := by
  intro j m hj hm
  cases j with
  | null => cases hm
  | _ => exact h.map some _ m hj hm

/-- The first item that is refused says why. -/
theorem mapM_error {items : List Json} (h : items.mapM s.accept = .error m) :
    ∃ j ∈ items, s.accept j = .error m := by
  induction items with
  | nil => cases h
  | cons j items ih =>
    rcases mapM_cons_eq_error_iff.1 h with hj | ⟨a, -, hitems⟩
    · exact ⟨j, List.mem_cons_self, hj⟩
    · obtain ⟨i, hi, hm⟩ := ih hitems
      exact ⟨i, List.mem_cons_of_mem j hi, hm⟩

theorem RefusesWithin.list (h : s.RefusesWithin n) : s.list.RefusesWithin n := by
  intro j m hj hm
  cases j with
  | array items =>
    obtain ⟨i, hi, hm⟩ := mapM_error hm
    have hsize := size_le_of_mem hi
    rw [size] at hj
    exact h i m (by omega) hm
  | _ =>
    cases hm
    exact ⟨Found.within_of hj, by decide +kernel⟩

end Shape

/-! ## Records -/

/-- A field with a brief name and a shape of its own. -/
structure Slot.Modest (slot : Slot σ) (n : Nat) : Prop where
  name : Brief slot.name
  shape : ∀ state, (slot.shape state).RefusesWithin n

theorem Slot.modest_of {name : String} {get : σ → Option α} {set : σ → α → σ} {s : Shape α}
    (hname : Brief name) (h : s.RefusesWithin n) : (Slot.of name get set s).Modest n :=
  ⟨hname, fun _ => h.map _⟩

namespace Record

/-- A record with brief names whose fields have shapes of their own. -/
structure Modest (r : Record σ α) (n : Nat) : Prop where
  expected : Brief r.expected
  slots : ∀ slot ∈ r.slots, slot.Modest n
  /-- the name of the number of its items -/
  length : Brief (itemsInSequence r.slots.length)
  ofFields : ∀ state m, r.ofFields state = .error m → m.Within n
  ofItems : ∀ count state m, count ≤ n → r.ofItems count state = .error m → m.Within n

theorem within_of_need {name : String} {o : Option α} (hname : Brief name)
    (h : need name o = .error m) : m.Within n := by
  cases o with
  | none => cases h; exact hname
  | some a => cases h

theorem within_of_needItem {expected : String} {count : Nat} {o : Option α}
    (hexpected : Brief expected) (hcount : count ≤ n) (h : needItem expected count o = .error m) :
    m.Within n := by
  cases o with
  | none => cases h; exact ⟨hcount, hexpected⟩
  | some a => cases h

variable {r : Record σ α}

theorem acceptMembers_within (hr : ∀ slot ∈ r.slots, slot.Modest n) {members : Object} {state : σ}
    (hsize : memberSizes members ≤ n) (h : r.acceptMembers state members = .error m) :
    m.Within n := by
  induction members generalizing state with
  | nil => cases h
  | cons member members ih =>
    obtain ⟨key, j⟩ := member
    rw [memberSizes] at hsize
    rw [acceptMembers] at h
    split at h
    · next slot hslot =>
      have hmodest := hr slot (List.mem_of_find?_eq_some hslot)
      split at h
      · cases h
        exact hmodest.name
      · rcases bind_eq_error_iff.1 h with hj | ⟨state', -, hrest⟩
        · exact hmodest.shape state j m (by omega) hj
        · exact ih (by omega) hrest
    · exact ih (by omega) h

theorem acceptItems_within {slots : List (Slot σ)} (hslots : ∀ slot ∈ slots, slot.Modest n)
    {items : List Json} {state : σ} (hsize : itemSizes items ≤ n)
    (h : acceptItems state slots items = .error m) : m.Within n := by
  induction slots generalizing items state with
  | nil => cases items <;> cases h
  | cons slot slots ih =>
    rw [List.forall_mem_cons] at hslots
    cases items with
    | nil => cases h
    | cons j items =>
      rw [itemSizes] at hsize
      rw [acceptItems] at h
      rcases bind_eq_error_iff.1 h with hj | ⟨state', -, hrest⟩
      · exact hslots.1.shape state j m (by omega) hj
      · exact ih hslots.2 (by omega) hrest

theorem Modest.refusesWithin (hr : r.Modest n) : r.shape.RefusesWithin n := by
  intro j m hj hm
  cases j with
  | object members =>
    rw [size] at hj
    rcases bind_eq_error_iff.1 hm with hmembers | ⟨state, -, hvalue⟩
    · exact acceptMembers_within hr.slots (by omega) hmembers
    · exact hr.ofFields state m hvalue
  | array items =>
    have hlength := length_le_itemSizes items
    rw [size] at hj
    rcases bind_eq_error_iff.1 hm with hitems | ⟨state, -, hrest⟩
    · exact acceptItems_within hr.slots (by omega) hitems
    · rcases bind_eq_error_iff.1 hrest with hvalue | ⟨value, -, hcount⟩
      · exact hr.ofItems _ state m (by omega) hvalue
      · split at hcount
        · cases hcount
          exact ⟨by omega, hr.length⟩
        · cases hcount
  | _ =>
    cases hm
    exact ⟨Found.within_of hj, hr.expected⟩

end Record

end IndexFeed.Json
