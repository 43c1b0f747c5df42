import IndexFeed.Json.Basic

/-!
# Members by their keys

The members of an object in normal form have distinct keys in ascending order, and each key has the
value of its last occurrence (`get?_normalMembers`).
-/

set_option autoImplicit false

namespace IndexFeed.Json

namespace Object

variable {o : Object} {key k : String} {value v : Json}

/-- The keys of an object. -/
def keys (o : Object) : List String := o.map Prod.fst

/-- The value of the last member with a key. -/
def last? (o : Object) (key : String) : Option Json := o.reverse.lookup key

@[simp] theorem keys_nil : keys [] = [] := rfl

@[simp] theorem keys_cons (m : String × Json) (o : Object) : keys (m :: o) = m.1 :: keys o := rfl

@[simp] theorem keys_append (o p : Object) : keys (o ++ p) = keys o ++ keys p := List.map_append

@[simp] theorem get?_nil (key : String) : get? [] key = none := rfl

theorem get?_cons (m : String × Json) (o : Object) (key : String) :
    get? (m :: o) key = if key = m.1 then some m.2 else o.get? key := by
  rw [get?, List.lookup_cons]
  by_cases hkey : key = m.1
  · rw [if_pos hkey, beq_iff_eq.2 hkey]
  · rw [if_neg hkey, beq_eq_false_iff_ne.2 hkey]
    rfl

theorem get?_eq_none_iff : o.get? key = none ↔ key ∉ o.keys := by
  rw [get?, List.lookup_eq_none_iff, keys, List.mem_map]
  constructor
  · rintro h ⟨m, hm, rfl⟩
    exact absurd rfl (bne_iff_ne.1 (h m hm))
  · intro h m hm
    exact bne_iff_ne.2 fun hkey => h ⟨m, hm, hkey.symm⟩

/-- A member behind an object, with a key that the object does not have. -/
theorem get?_concat (h : k ∉ o.keys) (key : String) :
    get? (o ++ [(k, v)]) key = if key = k then some v else o.get? key := by
  have happend : get? (o ++ [(k, v)]) key = (o.get? key).or (get? [(k, v)] key) := List.lookup_append
  rw [happend, get?_cons]
  by_cases hkey : key = k
  · rw [if_pos hkey, if_pos hkey, hkey, get?_eq_none_iff.2 h, Option.none_or]
  · rw [if_neg hkey, if_neg hkey, get?_nil, Option.or_none]

theorem last?_cons (m : String × Json) (o : Object) (key : String) :
    last? (m :: o) key = (o.last? key).or (get? [m] key) := by
  rw [last?, List.reverse_cons, List.lookup_append]
  rfl

/-! ## Adding members in order -/

/-- The keys ascend, so no key is there twice. -/
def Ascends (o : Object) : Prop := o.keys.Pairwise (· < ·)

theorem Ascends.nodup (h : o.Ascends) : o.keys.Nodup := by
  refine List.Pairwise.imp ?_ h
  rintro a b hlt rfl
  exact String.lt_irrefl a hlt

theorem mem_keys_insertNew : k ∈ (insertNew key value o).keys ↔ k = key ∨ k ∈ o.keys := by
  induction o with
  | nil => simp [insertNew]
  | cons m o ih =>
    rw [insertNew]
    split
    · simp
    · split
      · next hkey =>
        rw [hkey, keys_cons, List.mem_cons]
        exact ⟨.inr, fun h => h.elim .inl id⟩
      · rw [keys_cons, keys_cons, List.mem_cons, List.mem_cons, ih]
        exact or_left_comm

theorem lt_of_not_lt {a b : String} (h : ¬a < b) (hne : a ≠ b) : b < a :=
  Classical.byContradiction fun hba =>
    hne (String.le_antisymm (String.not_lt.1 hba) (String.not_lt.1 h))

theorem Ascends.insertNew (h : o.Ascends) : (insertNew key value o).Ascends := by
  induction o with
  | nil => exact List.pairwise_singleton ..
  | cons m o ih =>
    obtain ⟨hfirst, hrest⟩ := List.pairwise_cons.1 h
    rw [Object.insertNew]
    split
    · next hlt =>
      refine List.pairwise_cons.2 ⟨?_, h⟩
      intro k hk
      rcases List.mem_cons.1 hk with rfl | hk
      · exact hlt
      · exact String.lt_trans hlt (hfirst k hk)
    · next hlt =>
      split
      · exact h
      · next hne =>
        refine List.pairwise_cons.2 ⟨?_, ih hrest⟩
        intro k hk
        rcases mem_keys_insertNew.1 hk with rfl | hk
        · exact lt_of_not_lt hlt hne
        · exact hfirst k hk

/-- A key that is present keeps its value. -/
theorem get?_insertNew (h : o.Ascends) (key : String) :
    (insertNew k v o).get? key = (o.get? key).or (get? [(k, v)] key) := by
  induction o with
  | nil => rfl
  | cons m o ih =>
    obtain ⟨hfirst, hrest⟩ := List.pairwise_cons.1 h
    rw [insertNew]
    split
    · next hlt =>
      -- the key is smaller than all that are there
      have habsent : get? (m :: o) k = none := by
        refine get?_eq_none_iff.2 fun hk => ?_
        rcases List.mem_cons.1 hk with heq | hk
        · exact String.lt_irrefl k (heq ▸ hlt)
        · exact String.lt_irrefl k (String.lt_trans hlt (hfirst k hk))
      rw [get?_cons (k, v)]
      by_cases hkey : key = k
      · rw [if_pos hkey, hkey, habsent, get?_cons, if_pos rfl, Option.none_or]
      · rw [if_neg hkey, get?_cons (k, v), if_neg hkey, get?_nil, Option.or_none]
    · split
      · next hkey =>
        by_cases hm : key = m.1
        · rw [get?_cons m, if_pos hm, Option.some_or]
        · rw [get?_cons (k, v), if_neg (hkey ▸ hm), get?_nil, Option.or_none]
      · rw [get?_cons m, get?_cons m, ih hrest]
        split
        · rw [Option.some_or]
        · rfl

end Object

/-! ## Normal form -/

theorem ascends_normalMembers (ms : Object) : Object.Ascends (normalMembers ms) := by
  induction ms with
  | nil => exact List.Pairwise.nil
  | cons m ms ih => exact ih.insertNew

/-- **In normal form each key has the value of its last occurrence.** -/
theorem get?_normalMembers (ms : Object) (key : String) :
    Object.get? (normalMembers ms) key = (ms.last? key).map normal := by
  induction ms with
  | nil => rfl
  | cons m ms ih =>
    rw [normalMembers, Object.get?_insertNew (ascends_normalMembers ms), ih, Object.last?_cons,
      Option.map_or, Object.get?_cons, Object.get?_cons]
    split <;> rfl

end IndexFeed.Json
