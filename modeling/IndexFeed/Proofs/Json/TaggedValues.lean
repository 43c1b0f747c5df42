import IndexFeed.Proofs.Json.Misfitting

/-!
# Tagged values as values

What a tagged value says can be told from the JSON value alone: the tag is the value of the one member
with its key, or the first item of an array.  The decoder of tagged values comes to the same on every
text of the value that nests no deeper than it reads.
-/

set_option autoImplicit false

namespace IndexFeed.Json.Tagged

variable {known : List String} {expected : String} {n : Nat} {j : Json} {js : List Json} {ms : Object}
  {t : Tagged} {m : Misfit} {x : Cause} {o : Option String}

/-! ## The tag -/

/-- The tag that a value is, if it is known. -/
def acceptTag (known : List String) : Json → Except Misfit String
  | .string name => if known.contains name then .ok name else .error (.variant name known)
  | j => .error (.kind (.of j) "variant identifier")

theorem acceptTag_eq_ok {tag : String} (h : acceptTag known j = .ok tag) :
    j = .string tag ∧ known.contains tag = true := by
  cases j with
  | string name =>
    rw [acceptTag] at h
    split at h
    · next hknown =>
      cases h
      exact ⟨rfl, hknown⟩
    · cases h
  | null | bool | number | array | object => cases h

theorem raises_tagShape (n : Nat) (h : acceptTag known j = .error m) :
    (tagShape known).Raises n j (.misfit m) := by
  by_cases hj : ∃ name, j = .string name
  · obtain ⟨name, rfl⟩ := hj
    refine Decoder.Raises.settled (Decoder.raises_onHead fun b q c d hp hc _ => ?_)
    obtain rfl : b = Octet.quote := hp.begins
    exact Decoder.failsWith_of_unfit (hp.run_string hc) h
  · have hkind : m = .kind (.of j) "variant identifier" := by
      cases j with
      | string name => exact absurd ⟨name, rfl⟩ hj
      | null | bool | number | array | object => exact (Except.error.inj h).symm
    subst hkind
    refine Decoder.Raises.settled (Decoder.raises_onHead fun b q c d hp hc hd => ?_)
    have hb : b ≠ Octet.quote := by
      rintro rfl
      exact hj hp.begins.of_quote
    rw [if_neg hb]
    exact (raises_mismatch _ n j).run hp hc hd

/-! ## Members -/

/-- The tagged value that the members of an object are. -/
def ofMembers (known : List String) (ms : Object) : Except Misfit Tagged :=
  match ms.filter (·.1 == key) with
  | [] => .error (.missingField key)
  | [m] => (acceptTag known m.2).map fun tag => ⟨tag, .object (ms.filter (·.1 != key))⟩
  | m :: _ :: _ => (acceptTag known m.2).bind fun _ => .error (.duplicateField key)

theorem others_raise (hn : n ≤ deepest - 1) (hms : ∀ m ∈ ms, m.1 ≠ key) (o : Option String)
    (acc : Object) {rest : Object}
    (h : MembersRaise (member known) n x (o, ms.reverse ++ acc) rest) :
    MembersRaise (member known) n x (o, acc) (ms ++ rest) := by
  induction ms generalizing acc with
  | nil => exact h
  | cons m ms ih =>
    obtain ⟨k, j⟩ := m
    rw [List.forall_mem_cons] at hms
    rw [List.reverse_cons, List.append_assoc] at h
    have hvalue : ((Decoder.value (deepest - 1)).map fun j => (o, (k, j) :: acc)).Makes n j
        (o, (k, j) :: acc) := (Decoder.makes_value hn j).map
    refine .later ?_ hvalue (ih hms.2 ((k, j) :: acc) h)
    rw [member, if_neg hms.1]

/-- The tag stands behind other members. -/
theorem member_key (known : List String) (acc : Object) :
    member known key (none, acc) =
      (((tagShape known).map fun t => (some t, acc)).under (.key key)).afterColon := by
  rw [member, if_pos rfl]
  rfl

/-- The members in front of the first tag, and those behind it. -/
theorem exists_of_filter_eq_cons {m : String × Json} {rest : Object}
    (h : ms.filter (·.1 == key) = m :: rest) : ∃ before after, ms = before ++ m :: after ∧
      (∀ m ∈ before, m.1 ≠ key) ∧ m.1 = key ∧ after.filter (·.1 == key) = rest := by
  obtain ⟨before, after, rfl, hbefore, hm, hafter⟩ := List.filter_eq_cons_iff.1 h
  exact ⟨before, after, rfl, fun m hm h => hbefore m hm (beq_iff_eq.2 h), beq_iff_eq.1 hm, hafter⟩

theorem ne_key_of_filter_eq_nil (h : ms.filter (·.1 == key) = []) : ∀ m ∈ ms, m.1 ≠ key :=
  fun m hm hk => List.filter_eq_nil_iff.1 h m hm (beq_iff_eq.2 hk)

theorem filter_ne_eq_self (h : ∀ m ∈ ms, m.1 ≠ key) : ms.filter (·.1 != key) = ms :=
  List.filter_eq_self.2 fun m hm => bne_iff_ne.2 (h m hm)

/-- The members that make a tagged value: one of them is the tag. -/
theorem exists_of_ofMembers (h : ofMembers known ms = .ok t) :
    ∃ before after, ms = before ++ (key, .string t.tag) :: after ∧ known.contains t.tag = true ∧
      (∀ m ∈ before, m.1 ≠ key) ∧ (∀ m ∈ after, m.1 ≠ key) ∧ t.body = .object (before ++ after) := by
  unfold ofMembers at h
  split at h
  · cases h
  · next tag hone =>
    obtain ⟨before, after, rfl, hbefore, hkey, hafter⟩ := exists_of_filter_eq_cons hone
    obtain ⟨k, j⟩ := tag
    obtain rfl : k = key := hkey
    have hothers := ne_key_of_filter_eq_nil hafter
    obtain ⟨name, hj, rfl⟩ := map_eq_ok_iff.1 h
    obtain ⟨rfl, hknown⟩ := acceptTag_eq_ok hj
    refine ⟨before, after, rfl, hknown, hbefore, hothers, congrArg Json.object ?_⟩
    rw [List.filter_append, List.filter_cons_of_neg (by simp), filter_ne_eq_self hbefore,
      filter_ne_eq_self hothers]
  · obtain ⟨name, -, hduplicate⟩ := bind_eq_ok_iff.1 h
    cases hduplicate

/-- A tag that is refused behind other members. -/
theorem membersRaise_tag {before after : Object} (hn : n ≤ deepest - 1)
    (hbefore : ∀ m ∈ before, m.1 ≠ key) (h : acceptTag known j = .error m) :
    MembersRaise (member known) n (.misfit m) (none, []) (before ++ (key, j) :: after) := by
  refine others_raise hn hbefore none [] ?_
  exact .here (member_key known _) ((raises_tagShape n h).map.under (.key key))

/-- A second tag is refused before its value is read. -/
theorem membersRaise_second {before between after : Object} {tag : String} (hn : n ≤ deepest - 1)
    (hbefore : ∀ m ∈ before, m.1 ≠ key) (hknown : known.contains tag = true)
    (hbetween : ∀ m ∈ between, m.1 ≠ key) :
    MembersRaise (member known) n (.misfit (.duplicateField key)) (none, [])
      (before ++ (key, .string tag) :: (between ++ (key, j) :: after)) := by
  refine others_raise hn hbefore none [] ?_
  refine .later (member_key known _) ((makes_tagShape hknown n).map.under (.key key)) ?_
  refine others_raise hn hbetween (some tag) _ (.key fun c => ?_)
  rw [member, if_pos rfl, if_pos Option.isSome_some]
  exact ⟨_, rfl, rfl⟩

/-- Members that make no tagged value: one of them is refused, or there is no tag. -/
theorem membersRaise_of_error (hn : n ≤ deepest - 1) (h : ofMembers known ms = .error m) :
    MembersRaise (member known) n (.misfit m) (none, []) ms ∨
      m = .missingField key ∧ ∃ q, MembersMake (member known) n (none, []) ms (none, q) := by
  unfold ofMembers at h
  split at h
  · next hnone =>
    cases h
    refine .inr ⟨rfl, ms.reverse, ?_⟩
    have hothers : MembersMake (member known) n (none, []) (ms ++ []) (none, ms.reverse ++ []) :=
      others_make hn (ne_key_of_filter_eq_nil hnone) none [] (.nil _)
    rwa [List.append_nil, List.append_nil] at hothers
  · next tag hone =>
    obtain ⟨before, after, rfl, hbefore, hkey, -⟩ := exists_of_filter_eq_cons hone
    obtain ⟨k, j⟩ := tag
    obtain rfl : k = key := hkey
    exact .inl (membersRaise_tag hn hbefore (map_eq_error_iff.1 h))
  · next tag tag' rest htwo =>
    obtain ⟨before, behind, rfl, hbefore, hkey, hbehind⟩ := exists_of_filter_eq_cons htwo
    obtain ⟨between, after, rfl, hbetween, hkey', -⟩ := exists_of_filter_eq_cons hbehind
    obtain ⟨k, j⟩ := tag
    obtain rfl : k = key := hkey
    obtain ⟨k', j'⟩ := tag'
    obtain rfl : k' = key := hkey'
    rcases bind_eq_error_iff.1 h with hj | ⟨name, hj, hduplicate⟩
    · exact .inl (membersRaise_tag hn hbefore hj)
    · cases hduplicate
      obtain ⟨rfl, hknown⟩ := acceptTag_eq_ok hj
      exact .inl (membersRaise_second hn hbefore hknown hbetween)

/-! ## Items -/

/-- Items behind the tag are kept as they are. -/
theorem items_make (hn : n ≤ deepest - 1) (i : Nat) (o : Option String) (acc : List Json) :
    ItemsMake (item known) n (i + 1) (o, acc) js (o, js.reverse ++ acc) := by
  induction js generalizing i acc with
  | nil => exact .nil _ _
  | cons j js ih =>
    have hvalue : ((Decoder.value (deepest - 1)).map fun j => (o, j :: acc)).Makes n j (o, j :: acc) :=
      (Decoder.makes_value hn j).map
    rw [List.reverse_cons, List.append_assoc]
    refine .cons ?_ hvalue (ih (i + 1) (j :: acc))
    rw [item, if_neg (Nat.succ_ne_zero i)]

theorem item_zero (known : List String) :
    item known 0 (none, []) = some (((tagShape known).map fun t => (some t, [])).under (.item 0)) := by
  rw [item, if_pos rfl]

/-! ## Values -/

/-- The tagged value that a JSON value is. -/
def ofJson (expected : String) (known : List String) : Json → Except Misfit Tagged
  | .object ms => ofMembers known ms
  | .array [] => .error (.missingField key)
  | .array (j :: js) => (acceptTag known j).map fun tag => ⟨tag, .array js⟩
  | j => .error (.kind (.of j) expected)

/-- **A tagged value is read from every text of it.** -/
theorem makes_of_ofJson (hn : n ≤ deepest) (h : ofJson expected known j = .ok t) :
    (decode expected known).Makes n j t := by
  cases j with
  | object ms =>
    obtain ⟨before, after, rfl, hknown, hbefore, hafter, hbody⟩ := exists_of_ofMembers h
    obtain ⟨tag, body⟩ := t
    obtain rfl : body = _ := hbody
    exact makes_decode hknown hn hbefore hafter
  | array js =>
    cases js with
    | nil => cases h
    | cons j js =>
      obtain ⟨tag, hj, rfl⟩ := map_eq_ok_iff.1 h
      obtain ⟨rfl, hknown⟩ := acceptTag_eq_ok hj
      refine Decoder.Makes.settled (Decoder.makes_onHead fun b q c d hp hc _ => ?_)
      have hbrace : Octet.openBracket ≠ Octet.openBrace := by decide
      obtain ⟨hb, k, rfl⟩ := hp.array_head
      have hk : k ≤ deepest - 1 := Nat.le_sub_one_of_lt hn
      have hitems : ItemsMake (item known) k 0 (none, []) (.string tag :: js)
          (some tag, js.reverse ++ []) :=
        .cons (item_zero known) ((makes_tagShape hknown k).map.under (.item 0))
          (items_make hk 0 (some tag) [])
      rw [hb, if_neg hbrace, if_pos rfl]
      simp only [Decoder.refine, hitems.arrayOf hp hc, Record.need, Except.map,
        List.append_nil, List.reverse_reverse]
  | null | bool | number | string => cases h

/-- **A value that is no tagged value is refused in every text of it**, for the same reason. -/
theorem raises_of_ofJson (hn : n ≤ deepest) (h : ofJson expected known j = .error m) :
    (decode expected known).Raises n j (.misfit m) := by
  refine Decoder.Raises.settled (Decoder.raises_onHead fun b q c d hp hc hd => ?_)
  cases j with
  | object ms =>
    obtain ⟨hb, k, rfl⟩ := hp.object_head
    have hk : k ≤ deepest - 1 := Nat.le_sub_one_of_lt hn
    rw [if_pos hb]
    rcases membersRaise_of_error hk h with hraise | ⟨rfl, q, hmake⟩
    · exact Decoder.failsWith_refine (hraise.objectOf hp hc)
    · exact Decoder.failsWith_of_unfit (hmake.objectOf hp hc) rfl
  | array js =>
    have hbrace : Octet.openBracket ≠ Octet.openBrace := by decide
    obtain ⟨hb, k, rfl⟩ := hp.array_head
    rw [hb, if_neg hbrace, if_pos rfl]
    cases js with
    | nil =>
      cases h
      have hempty : ItemsMake (item known) k 0 (none, []) [] (none, []) := .nil _ _
      exact Decoder.failsWith_of_unfit (hempty.arrayOf hp hc) rfl
    | cons j js =>
      have hj := map_eq_error_iff.1 h
      have hraise : ItemsRaise (item known) k (.misfit m) 0 (none, []) (j :: js) :=
        .here (item_zero known) ((raises_tagShape k hj).map.under (.item 0))
      exact Decoder.failsWith_refine (hraise.arrayOf hp hc)
  | null | bool | number | string =>
    cases h
    obtain ⟨hbrace, hbracket⟩ := hp.begins.ne_open nofun nofun
    rw [if_neg hbrace, if_neg hbracket]
    exact (raises_mismatch _ n _).run hp hc hd

end IndexFeed.Json.Tagged
