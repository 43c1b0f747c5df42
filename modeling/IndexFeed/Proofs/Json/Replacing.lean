import IndexFeed.Proofs.Json.TaggedValues

/-!
# Values in which one part is replaced

A value that a shape accepts is refused when a part of it is replaced by one that does not fit
there.  Everything read in front of the part still fits, so the reason is that of the part, and it
is known from the path to the part and the new value.
-/

set_option autoImplicit false

namespace IndexFeed.Json

variable {α β σ : Type} {v j j' : Json} {path : List Segment} {m : Misfit}

/-- The second value is the first one with `v` at the end of a path. -/
inductive Replaced (v : Json) : List Segment → Json → Json → Prop where
  | here (j : Json) : Replaced v [] j v
  | member {key : String} {path : List Segment} {j j' : Json} (before after : Object) :
      Replaced v path j j' → Replaced v (.key key :: path) (.object (before ++ (key, j) :: after))
        (.object (before ++ (key, j') :: after))
  | item {i : Nat} {path : List Segment} {j j' : Json} (before after : List Json) :
      before.length = i → Replaced v path j j' →
      Replaced v (.item i :: path) (.array (before ++ j :: after)) (.array (before ++ j' :: after))

/-! ## Shapes -/

namespace Shape

variable {y : Shape α}

/-- Whatever the shape accepts, it refuses with `v` at the end of the path. -/
def Bars (y : Shape α) (path : List Segment) (v : Json) (m : Misfit) : Prop :=
  ∀ ⦃j j' : Json⦄ ⦃a : α⦄, y.accept j = .ok a → Replaced v path j j' → y.accept j' = .error m

theorem bars_here (h : y.accept v = .error m) : y.Bars [] v m := by
  intro j j' a _ hr
  cases hr with
  | here => exact h

theorem Bars.map {f : α → β} (h : y.Bars path v m) : (y.map f).Bars path v m := by
  intro j j' b hb hr
  obtain ⟨a, ha, -⟩ := map_eq_ok_iff.1 hb
  exact map_eq_error_iff.2 (h ha hr)

theorem Bars.item (h : y.Bars path v m) (i : Nat) : y.list.Bars (.item i :: path) v m := by
  intro j j' as has hr
  cases hr with
  | @item _ _ k k' before after _ hr =>
    have hall : (before ++ k :: after).mapM y.accept = .ok as := has
    show (before ++ k' :: after).mapM y.accept = .error m
    rw [List.mapM_append] at hall ⊢
    obtain ⟨bs, hbefore, hrest⟩ := bind_eq_ok_iff.1 hall
    obtain ⟨cs, hcs, -⟩ := bind_eq_ok_iff.1 hrest
    obtain ⟨a, -, hk, -, -⟩ := mapM_cons_eq_ok_iff.1 hcs
    have hunfit : (k' :: after).mapM y.accept = .error m :=
      mapM_cons_eq_error_iff.2 (.inl (h hk hr))
    exact bind_eq_error_iff.2 (.inr ⟨bs, hbefore, bind_eq_error_iff.2 (.inl hunfit)⟩)

end Shape

/-! ## Records -/

/-- The field of a key has one shape in every state. -/
theorem Record.bars_field {r : Record σ α} {slot : Slot σ} {key : String}
    (hslot : r.slots.find? (fun slot => slot.name == key) = some slot)
    (h : ∀ s, (slot.shape s).Bars path v m) : r.shape.Bars (.key key :: path) v m := by
  intro j j' a ha hr
  cases hr with
  | @member _ _ k k' before after hr =>
    obtain ⟨t, ht, -⟩ := bind_eq_ok_iff.1 ha
    refine bind_eq_error_iff.2 (.inl ?_)
    rw [acceptMembers_append] at ht ⊢
    obtain ⟨s, hbefore, hrest⟩ := bind_eq_ok_iff.1 ht
    refine bind_eq_error_iff.2 (.inr ⟨s, hbefore, ?_⟩)
    simp only [Record.acceptMembers, hslot] at hrest ⊢
    split at hrest
    · cases hrest
    · next hset =>
      obtain ⟨u, hk, -⟩ := bind_eq_ok_iff.1 hrest
      rw [if_neg hset]
      exact bind_eq_error_iff.2 (.inl (h s hk hr))

/-! ## Tagged values -/

/-- A member beside the tag is replaced in what is kept. -/
theorem Tagged.ofJson_replaced {expected key : String} {known : List String} {t : Tagged}
    (h : ofJson expected known j = .ok t) (hr : Replaced v (.key key :: path) j j')
    (hkey : key ≠ Tagged.key) :
    ∃ body, Replaced v (.key key :: path) t.body body ∧
      ofJson expected known j' = .ok ⟨t.tag, body⟩ := by
  cases hr with
  | @member _ _ k k' before after hr =>
    have htag : ∀ k, (before ++ (key, k) :: after).filter (·.1 == Tagged.key) =
        before.filter (·.1 == Tagged.key) ++ after.filter (·.1 == Tagged.key) := by
      intro k
      rw [List.filter_append, List.filter_cons_of_neg (by simpa using hkey)]
    have hothers : ∀ k, (before ++ (key, k) :: after).filter (·.1 != Tagged.key) =
        before.filter (·.1 != Tagged.key) ++ (key, k) :: after.filter (·.1 != Tagged.key) := by
      intro k
      rw [List.filter_append, List.filter_cons_of_pos (by simpa using hkey)]
    simp only [ofJson, ofMembers, htag, hothers] at h ⊢
    split at h
    · cases h
    · obtain ⟨name, hname, rfl⟩ := map_eq_ok_iff.1 h
      exact ⟨_, .member _ _ hr, map_eq_ok_iff.2 ⟨name, hname, rfl⟩⟩
    · obtain ⟨name, -, hduplicate⟩ := bind_eq_ok_iff.1 h
      cases hduplicate

end IndexFeed.Json
