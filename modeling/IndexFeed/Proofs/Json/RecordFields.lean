import IndexFeed.Proofs.Json.Acceptance

/-!
# What fields hold

A record fills its fields from the members of an object or the items of an array, one after the other.
What a field holds in the end can be told without that order: it comes from the one member with its name,
or from the item with its number, and from nothing else.
-/

set_option autoImplicit false

namespace IndexFeed.Json

variable {α β σ : Type} {j : Json} {js : List Json} {ms : Object} {key name : String} {i k : Nat}
  {s t : σ}

/-! ## Values of fields -/

/-- The values of the members with a key. -/
def valuesOf (ms : Object) (key : String) : List Json :=
  (ms.filter fun m => m.1 == key).map Prod.snd

theorem valuesOf_cons_self (key : String) (j : Json) (ms : Object) :
    valuesOf ((key, j) :: ms) key = j :: valuesOf ms key := by
  rw [valuesOf, List.filter_cons_of_pos (by simp)]
  rfl

theorem valuesOf_cons_of_ne (h : key ≠ name) (j : Json) (ms : Object) :
    valuesOf ((key, j) :: ms) name = valuesOf ms name := by
  rw [valuesOf, List.filter_cons_of_neg (by simpa using h)]
  rfl

/-- What a value gives for a field: the value of the only member with its name, or the item with its
number; nothing where there is no such member, or the items end before. -/
def Gives (j : Json) (i : Nat) (name : String) (o : Option Json) : Prop :=
  match j with
  | .object ms => valuesOf ms name = o.toList
  | .array js => js[i]? = o
  | _ => False

theorem Gives.unique {o o' : Option Json} (h : j.Gives i name o) (h' : j.Gives i name o') : o = o' := by
  cases j with
  | object ms =>
    have hlist : o.toList = o'.toList := h.symm.trans h'
    have hhead := congrArg List.head? hlist
    rwa [Option.head?_toList, Option.head?_toList] at hhead
  | array js => exact h.symm.trans h'
  | null | bool | number | string => exact h.elim

/-- What a field holds that has been given a value, or nothing. -/
def Shape.Fills (x : Shape β) (o : Option Json) (v : Option β) : Prop :=
  match o with
  | none => v = none
  | some j => ∃ b, x.accept j = .ok b ∧ v = some b

theorem Shape.fills_some_iff {x : Shape β} {o : Option Json} {b : β} :
    x.Fills o (some b) ↔ ∃ j, o = some j ∧ x.accept j = .ok b := by
  cases o with
  | none => exact ⟨nofun, nofun⟩
  | some j =>
    constructor
    · rintro ⟨b', hb, ⟨⟩⟩
      exact ⟨j, rfl, hb⟩
    · rintro ⟨j', ⟨⟩, hb⟩
      exact ⟨b, hb, rfl⟩

theorem Shape.Fills.eq_some {x : Shape β} {b : β} {v : Option β} (h : x.Fills (some j) v)
    (hj : x.accept j = .ok b) : v = some b := by
  obtain ⟨b', hb, rfl⟩ := h
  rw [Except.ok.inj (hb.symm.trans hj)]

/-! ## Fields of records -/

@[simp] theorem Slot.name_of (name : String) (get : σ → Option β) (set : σ → β → σ) (x : Shape β) :
    (Slot.of name get set x).name = name := rfl

/-- Whatever the slot takes, it leaves a field as it was. -/
def Slot.Leaves (slot : Slot σ) (get : σ → Option β) : Prop :=
  ∀ s j t, (slot.shape s).accept j = .ok t → get t = get s

theorem Slot.leaves_of {get : σ → Option α} {get' : σ → Option β} {set : σ → α → σ} {x : Shape α}
    (h : ∀ s a, get' (set s a) = get' s) : (Slot.of name get set x).Leaves get' := by
  intro s j t ht
  obtain ⟨a, -, rfl⟩ := map_eq_ok_iff.1 ht
  exact h s a

namespace Record

/-- A field of a record: its slot alone has the name and changes what the field holds. -/
structure Field (r : Record σ α) (i : Nat) (name : String) (get : σ → Option β) (x : Shape β) :
    Prop where
  slot : ∃ set, r.slots[i]? = some (.of name get set x) ∧ ∀ s b, get (set s b) = some b
  others : ∀ slot ∈ r.slots.eraseIdx i, slot.name ≠ name ∧ slot.Leaves get
  start : get r.start = none

variable {r : Record σ α} {get : σ → Option β} {x : Shape β}

/-- The slot that is found by a name. -/
theorem exists_slot_of_find {slot : Slot σ}
    (h : r.slots.find? (fun slot => slot.name == key) = some slot) :
    slot.name = key ∧ ∃ k : Nat, r.slots[k]? = some slot := by
  have hname := List.find?_some h
  exact ⟨beq_iff_eq.1 hname, List.mem_iff_getElem?.1 (List.mem_of_find?_eq_some h)⟩

theorem Field.ne_of_find_none (h : r.Field i name get x)
    (hnone : r.slots.find? (fun slot => slot.name == key) = none) : key ≠ name := by
  obtain ⟨set, hslot, -⟩ := h.slot
  have hmem := List.find?_eq_none.1 hnone _ (List.mem_of_getElem? hslot)
  exact fun hkey => hmem (beq_iff_eq.2 hkey.symm)

/-- A slot that takes a value either is the field's own or leaves the field alone. -/
theorem Field.accept_cases (h : r.Field i name get x) {slot : Slot σ} (hk : r.slots[k]? = some slot)
    (hj : (slot.shape s).accept j = .ok t) :
    k = i ∧ slot.name = name ∧ slot.isSet s = (get s).isSome ∧
        (∃ b, x.accept j = .ok b ∧ get t = some b) ∨
      k ≠ i ∧ slot.name ≠ name ∧ get t = get s := by
  by_cases hki : k = i
  · subst hki
    obtain ⟨set, hslot, hset⟩ := h.slot
    obtain rfl := Option.some.inj (hk.symm.trans hslot)
    obtain ⟨b, hb, rfl⟩ := map_eq_ok_iff.1 hj
    exact .inl ⟨rfl, rfl, rfl, b, hb, hset s b⟩
  · obtain ⟨hname, hkeeps⟩ := h.others slot (List.mem_eraseIdx_iff_getElem?.2 ⟨k, hki, hk⟩)
    exact .inr ⟨hki, hname, hkeeps s j t hj⟩

/-- **Members fill a field once or not at all.** -/
theorem Field.fills_members (h : r.Field i name get x) (ht : r.acceptMembers s ms = .ok t) :
    valuesOf ms name = [] ∧ get t = get s ∨
      get s = none ∧ ∃ j b, valuesOf ms name = [j] ∧ x.accept j = .ok b ∧ get t = some b := by
  induction ms generalizing s with
  | nil =>
    cases ht
    exact .inl ⟨rfl, rfl⟩
  | cons m ms ih =>
    obtain ⟨key, j⟩ := m
    rw [acceptMembers] at ht
    split at ht
    · next slot hfind =>
      obtain ⟨rfl, k, hk⟩ := exists_slot_of_find hfind
      split at ht
      · cases ht
      · next hunset =>
        obtain ⟨s', hj, hrest⟩ := bind_eq_ok_iff.1 ht
        rcases h.accept_cases hk hj with ⟨-, rfl, hisSet, b, hb, hget⟩ | ⟨-, hne, hget⟩
        · rw [hisSet, Option.not_isSome_iff_eq_none] at hunset
          rw [valuesOf_cons_self]
          rcases ih hrest with ⟨hnil, hsame⟩ | ⟨hnone, -⟩
          · exact .inr ⟨hunset, j, b, by rw [hnil], hb, hsame.trans hget⟩
          · cases hget.symm.trans hnone
        · rw [valuesOf_cons_of_ne hne, ← hget]
          exact ih hrest
    · next hnone =>
      rw [valuesOf_cons_of_ne (h.ne_of_find_none hnone)]
      exact ih ht

/-- Items behind the one with the number of a field leave it alone. -/
theorem Field.keeps_items (h : r.Field i name get x) (hk : i < k)
    (ht : acceptItems s (r.slots.drop k) js = .ok t) : get t = get s := by
  induction js generalizing s k with
  | nil =>
    cases (acceptItems_nil _).symm.trans ht
    rfl
  | cons j js ih =>
    rcases Nat.lt_or_ge k r.slots.length with hlt | hge
    · rw [List.drop_eq_getElem_cons hlt, acceptItems] at ht
      obtain ⟨s', hj, hrest⟩ := bind_eq_ok_iff.1 ht
      rcases h.accept_cases (List.getElem?_eq_getElem hlt) hj with ⟨rfl, -⟩ | ⟨-, -, hget⟩
      · exact absurd hk (Nat.lt_irrefl k)
      · exact (ih (Nat.lt_succ_of_lt hk) hrest).trans hget
    · rw [List.drop_eq_nil_of_le hge] at ht
      cases ht
      rfl

/-- **Items fill the field with their number.** -/
theorem Field.fills_items (h : r.Field i name get x) (hk : k ≤ i) (hs : get s = none)
    (ht : acceptItems s (r.slots.drop k) js = .ok t) : x.Fills js[i - k]? (get t) := by
  have hi : i < r.slots.length := by
    obtain ⟨set, hslot, -⟩ := h.slot
    exact (List.getElem?_eq_some_iff.1 hslot).1
  induction js generalizing s k with
  | nil =>
    cases (acceptItems_nil _).symm.trans ht
    exact hs
  | cons j js ih =>
    have hlt := Nat.lt_of_le_of_lt hk hi
    rw [List.drop_eq_getElem_cons hlt, acceptItems] at ht
    obtain ⟨s', hj, hrest⟩ := bind_eq_ok_iff.1 ht
    rcases h.accept_cases (List.getElem?_eq_getElem hlt) hj with
      ⟨rfl, -, -, b, hb, hget⟩ | ⟨hne, -, hget⟩
    · rw [Nat.sub_self, h.keeps_items (Nat.lt_succ_self k) hrest]
      exact ⟨b, hb, hget⟩
    · have hlt' : k < i := Nat.lt_of_le_of_ne hk hne
      rw [show i - k = i - (k + 1) + 1 by omega]
      exact ih hlt' (hget.trans hs) hrest

/-! ## Records that accept -/

/-- Whatever the state, the field takes the value. -/
def Takes (slot : Slot σ) (j : Json) : Prop := ∀ s, ∃ t, (slot.shape s).accept j = .ok t

theorem takes_of {b : β} {set : σ → β → σ} (h : x.accept j = .ok b) :
    Takes (.of name get set x) j :=
  fun s => ⟨set s b, accept_map h⟩

/-- Every slot is a field on its own. -/
def Separate (r : Record σ α) : Prop :=
  ∀ i < r.slots.length, ∃ (β : Type) (name : String) (get : σ → Option β) (x : Shape β),
    r.Field i name get x

/-- Each slot knows whether its field is still open. -/
theorem Separate.exists_field (h : r.Separate) {slot : Slot σ} (hslot : slot ∈ r.slots) :
    ∃ (i : Nat) (β : Type) (get : σ → Option β) (x : Shape β),
      r.Field i slot.name get x ∧ ∀ s, slot.isSet s = (get s).isSome := by
  obtain ⟨i, hi⟩ := List.mem_iff_getElem?.1 hslot
  obtain ⟨β, name, get, x, hfield⟩ := h i (List.getElem?_eq_some_iff.1 hi).1
  obtain ⟨set, hof, -⟩ := hfield.slot
  obtain rfl := Option.some.inj (hi.symm.trans hof)
  exact ⟨i, β, get, x, hfield, fun _ => rfl⟩

theorem Separate.isSet_start (h : r.Separate) {slot : Slot σ} (hslot : slot ∈ r.slots) :
    slot.isSet r.start = false := by
  obtain ⟨i, β, get, x, hfield, hisSet⟩ := h.exists_field hslot
  rw [hisSet, hfield.start]
  rfl

/-- No field sets another one. -/
theorem Separate.isSet_eq (h : r.Separate) {slot slot' : Slot σ} (hslot : slot ∈ r.slots)
    (hslot' : slot' ∈ r.slots) (hne : slot'.name ≠ slot.name)
    (hj : (slot.shape s).accept j = .ok t) : slot'.isSet t = slot'.isSet s := by
  obtain ⟨k, hk⟩ := List.mem_iff_getElem?.1 hslot
  obtain ⟨i, β, get, x, hfield, hisSet⟩ := h.exists_field hslot'
  rcases hfield.accept_cases hk hj with ⟨-, hname, -⟩ | ⟨-, -, hget⟩
  · exact absurd hname.symm hne
  · rw [hisSet, hisSet, hget]

/-- Members whose names are no fields or fields that are still open are all taken. -/
theorem Separate.exists_acceptMembers (h : r.Separate)
    (hms : ∀ slot ∈ r.slots, valuesOf ms slot.name = [] ∨
      slot.isSet s = false ∧ ∃ j, valuesOf ms slot.name = [j] ∧ Takes slot j) :
    ∃ t, r.acceptMembers s ms = .ok t := by
  induction ms generalizing s with
  | nil => exact ⟨s, rfl⟩
  | cons m ms ih =>
    obtain ⟨key, j⟩ := m
    rw [acceptMembers]
    split
    · next slot hfind =>
      obtain ⟨rfl, -⟩ := exists_slot_of_find hfind
      have hslot := List.mem_of_find?_eq_some hfind
      rcases hms slot hslot with hnil | ⟨hset, j', hone, htakes⟩
      · rw [valuesOf_cons_self] at hnil
        cases hnil
      · rw [valuesOf_cons_self] at hone
        obtain ⟨rfl, hrest⟩ := List.cons.inj hone
        obtain ⟨s', hs'⟩ := htakes s
        rw [hset, if_neg Bool.false_ne_true, hs']
        refine ih fun slot' hslot' => ?_
        by_cases hname : slot'.name = slot.name
        · exact .inl (hname ▸ hrest)
        · rw [h.isSet_eq hslot hslot' hname hs', ← valuesOf_cons_of_ne (Ne.symm hname) j ms]
          exact hms slot' hslot'
    · next hnone =>
      refine ih fun slot hslot => ?_
      have hne : key ≠ slot.name := by
        rintro rfl
        exact List.find?_eq_none.1 hnone slot hslot (beq_self_eq_true slot.name)
      rw [← valuesOf_cons_of_ne hne j ms]
      exact hms slot hslot

theorem exists_acceptItems {slots : List (Slot σ)}
    (h : ∀ (i : Nat) slot j, slots[i]? = some slot → js[i]? = some j → Takes slot j) :
    ∃ t, acceptItems s slots js = .ok t := by
  induction slots generalizing s js with
  | nil => exact ⟨s, by cases js <;> rfl⟩
  | cons slot slots ih =>
    cases js with
    | nil => exact ⟨s, rfl⟩
    | cons j js =>
      obtain ⟨s', hs'⟩ := h 0 slot j rfl rfl s
      obtain ⟨t, ht⟩ := @ih js s' fun i slot j hslot hj => h (i + 1) slot j hslot hj
      exact ⟨t, bind_eq_ok_iff.2 ⟨s', hs', ht⟩⟩

/-- Items behind the last field are not looked at. -/
theorem acceptItems_take (s : σ) (slots : List (Slot σ)) (js : List Json) :
    acceptItems s slots (js.take slots.length) = acceptItems s slots js := by
  induction slots generalizing s js with
  | nil => cases js <;> rfl
  | cons slot slots ih =>
    cases js with
    | nil => rfl
    | cons j js =>
      rw [List.length_cons, List.take_succ_cons, acceptItems, acceptItems]
      exact congrArg (Except.bind _) (funext fun t => ih t js)

/-- The fields of a record, filled from an object or from an array. -/
def gather (r : Record σ α) (j : Json) : Except Misfit σ :=
  match j with
  | .object ms => r.acceptMembers r.start ms
  | .array js => acceptItems r.start r.slots js
  | j => .error (.kind (.of j) r.expected)

/-- **A field holds what the value gives for it.** -/
theorem Field.fills (h : r.Field i name get x) (ht : r.gather j = .ok t) :
    ∃ o, j.Gives i name o ∧ x.Fills o (get t) := by
  cases j with
  | object ms =>
    rcases h.fills_members ht with ⟨hnil, hget⟩ | ⟨-, k, b, hone, hb, hget⟩
    · exact ⟨none, hnil, hget.trans h.start⟩
    · exact ⟨some k, hone, b, hb, hget⟩
  | array js =>
    have hitems : acceptItems r.start (r.slots.drop 0) js = .ok t := by
      rwa [List.drop_zero]
    have hfills := h.fills_items (Nat.zero_le i) h.start hitems
    rw [Nat.sub_zero] at hfills
    exact ⟨js[i]?, rfl, hfills⟩
  | null | bool | number | string => cases ht

theorem Field.fills_of_gives {o : Option Json} (h : r.Field i name get x) (ht : r.gather j = .ok t)
    (ho : j.Gives i name o) : x.Fills o (get t) := by
  obtain ⟨o', ho', hfills⟩ := h.fills ht
  rwa [ho.unique ho']

/-- The fields are filled if each of them takes what the value gives for it. -/
theorem Separate.exists_gather (h : r.Separate) (hsome : r.slots ≠ [])
    (hj : ∀ (i : Nat) slot, r.slots[i]? = some slot →
      ∃ o, j.Gives i slot.name o ∧ ∀ k, o = some k → Takes slot k) : ∃ t, r.gather j = .ok t := by
  cases j with
  | object ms =>
    refine h.exists_acceptMembers fun slot hslot => ?_
    obtain ⟨i, hi⟩ := List.mem_iff_getElem?.1 hslot
    obtain ⟨o, hgives, htakes⟩ := hj i slot hi
    cases o with
    | none => exact .inl hgives
    | some k => exact .inr ⟨h.isSet_start hslot, k, hgives, htakes k rfl⟩
  | array js =>
    refine exists_acceptItems fun i slot k hslot hk => ?_
    obtain ⟨o, hgives, htakes⟩ := hj i slot hslot
    exact htakes k (hgives.symm.trans hk)
  | null | bool | number | string =>
    obtain ⟨slot, hslot⟩ := List.exists_mem_of_ne_nil _ hsome
    obtain ⟨i, hi⟩ := List.mem_iff_getElem?.1 hslot
    obtain ⟨o, hgives, -⟩ := hj i slot hi
    exact hgives.elim

/-- A record accepts what its fields can be filled from, if they make a value and no items are left
over. -/
theorem accept_eq_ok_iff {Made : σ → Prop} {a : α} (hobject : ∀ t, r.ofFields t = .ok a ↔ Made t)
    (harray : ∀ k t, r.ofItems k t = .ok a ↔ Made t) :
    r.accept j = .ok a ↔ ∃ t, r.gather j = .ok t ∧ Made t ∧
      ∀ js, j = .array js → js.length ≤ r.slots.length := by
  cases j with
  | object ms =>
    refine bind_eq_ok_iff.trans (exists_congr fun t => and_congr_right fun _ => ?_)
    exact (hobject t).trans (and_iff_left nofun).symm
  | array js =>
    constructor
    · intro h
      obtain ⟨t, ht, hrest⟩ := bind_eq_ok_iff.1 h
      obtain ⟨v, hv, hcount⟩ := bind_eq_ok_iff.1 hrest
      split at hcount
      · cases hcount
      · next hle =>
        cases hcount
        refine ⟨t, ht, (harray _ t).1 hv, fun js' hjs => ?_⟩
        exact Json.array.inj hjs ▸ Nat.le_of_not_lt hle
    · rintro ⟨t, ht, hmade, hle⟩
      have hcount := Nat.not_lt.2 (hle js rfl)
      exact bind_eq_ok_iff.2 ⟨t, ht, bind_eq_ok_iff.2 ⟨a, (harray _ t).2 hmade, if_neg hcount⟩⟩
  | null | bool | number | string =>
    constructor
    · intro h
      cases h
    · rintro ⟨t, ht, -⟩
      cases ht

theorem need_eq_ok_iff {o : Option β} {b : β} : need name o = .ok b ↔ o = some b := by
  cases o with
  | none => exact ⟨nofun, nofun⟩
  | some b' => rw [need, Except.ok.injEq, Option.some.injEq]

theorem needItem_eq_ok_iff {expected : String} {o : Option β} {b : β} :
    needItem expected k o = .ok b ↔ o = some b := by
  cases o with
  | none => exact ⟨nofun, nofun⟩
  | some b' => rw [needItem, Except.ok.injEq, Option.some.injEq]

/-- Two fields that must be there, whatever is said where one is not. -/
theorem bind_needs_eq_ok_iff {γ δ : Type} {o : Option β} {o' : Option γ} {e : Except Misfit β}
    {e' : Except Misfit γ} (he : ∀ b, e = .ok b ↔ o = some b) (he' : ∀ b, e' = .ok b ↔ o' = some b)
    {f : β → γ → δ} {x : δ} : (e.bind fun b => e'.bind fun b' => .ok (f b b')) = .ok x ↔
      ∃ b b', o = some b ∧ o' = some b' ∧ f b b' = x := by
  constructor
  · intro h
    obtain ⟨b, hb, hrest⟩ := bind_eq_ok_iff.1 h
    obtain ⟨b', hb', hx⟩ := bind_eq_ok_iff.1 hrest
    exact ⟨b, b', (he b).1 hb, (he' b').1 hb', Except.ok.inj hx⟩
  · rintro ⟨b, b', hb, hb', rfl⟩
    exact bind_eq_ok_iff.2 ⟨b, (he b).2 hb, bind_eq_ok_iff.2 ⟨b', (he' b').2 hb', rfl⟩⟩

end Record

end IndexFeed.Json
