import IndexFeed.Proofs.Json.Soundness
import IndexFeed.Proofs.Json.TaggedValues

/-!
# Tagged values are read from JSON texts

The decoder of tagged values looks into the tag and reads everything beside it as values.  So it
succeeds on no text that is no JSON, and what it gives is what the value of the text says.
-/

set_option autoImplicit false

namespace IndexFeed.Json

variable {α β γ σ τ : Type} {c d : Cursor} {n i : Nat} {s : σ}

/-! ## One decoder after the model of another -/

namespace Decoder

/-- Wherever the first decoder succeeds, the second one does, and both stop at the same place. -/
def Follows (D : Decoder α) (E : Decoder β) : Prop :=
  ∀ ⦃c d : Cursor⦄ ⦃a : α⦄, D.run c = .ok (a, d) → ∃ b, E.run c = .ok (b, d)

variable {D : Decoder α} {E : Decoder β}

theorem refine_eq_ok_iff {f : α → Except Misfit γ} {b : γ} :
    (D.refine f).run c = .ok (b, d) ↔ ∃ a, D.run c = .ok (a, d) ∧ f a = .ok b := by
  simp only [refine]
  constructor
  · intro h
    split at h
    · next a c' ha =>
      split at h
      · next hb =>
        cases h
        exact ⟨a, ha, hb⟩
      · cases h
    · cases h
  · rintro ⟨a, ha, hb⟩
    simp only [ha, hb]

theorem follows_refl (D : Decoder α) : D.Follows D := fun _ _ a h => ⟨a, h⟩

theorem follows_fail (f : Cursor → Fault) (E : Decoder β) : (fail f : Decoder α).Follows E :=
  fun _ _ _ h => nomatch h

theorem Follows.of_map {f : α → γ} (h : D.Follows E) : (D.map f).Follows E := by
  intro c d b hb
  obtain ⟨a, ha, -⟩ := map_eq_ok_iff.1 hb
  exact h ha

theorem Follows.map {f : β → γ} (h : D.Follows E) : D.Follows (E.map f) := by
  intro c d a ha
  obtain ⟨b, hb⟩ := h ha
  exact ⟨f b, map_eq_ok_iff.2 ⟨b, hb, rfl⟩⟩

theorem Follows.of_refine {f : α → Except Misfit γ} (h : D.Follows E) : (D.refine f).Follows E := by
  intro c d b hb
  obtain ⟨a, ha, -⟩ := refine_eq_ok_iff.1 hb
  exact h ha

theorem Follows.of_mapFault {f : Fault → Fault} (h : D.Follows E) : (D.mapFault f).Follows E := by
  intro c d a ha
  simp only [mapFault] at ha
  split at ha
  · next hr =>
    cases ha
    exact h hr
  · cases ha

theorem Follows.of_settled (h : D.Follows E) : D.settled.Follows E := h.of_mapFault

theorem Follows.of_under (h : D.Follows E) (x : Segment) : (D.under x).Follows E := h.of_mapFault

theorem follows_onHead {x y : Cause} {F : UInt8 → Decoder α} {G : UInt8 → Decoder β}
    (h : ∀ b, (F b).Follows (G b)) : (onHead x F).Follows (onHead y G) := by
  intro c d a ha
  simp only [onHead] at ha ⊢
  split at ha
  · cases ha
  · exact h _ ha

theorem Follows.afterColon (h : D.Follows E) : D.afterColon.Follows E.afterColon := by
  refine follows_onHead fun b => ?_
  split
  · intro c d a ha
    simp only [afterOctet, afterHead] at ha ⊢
    split at ha
    · cases ha
    · exact h ha
  · exact follows_fail _ _

/-- What is found and then refused. -/
theorem follows_refuse {f : α → Misfit} (D : Decoder α) (E : Decoder β) :
    (D.refine fun a => (.error (f a) : Except Misfit γ)).Follows E := by
  intro c d b hb
  obtain ⟨a, -, ha⟩ := refine_eq_ok_iff.1 hb
  cases ha

/-- A value of another kind is never taken. -/
theorem follows_mismatch (expected : String) (E : Decoder β) :
    (mismatch expected : Decoder α).Follows E := by
  let never : Decoder β := fail (·.ahead .expectedValue)
  have hnever : (mismatch expected : Decoder α).Follows (onHead .endInValue fun _ => never) := by
    refine Follows.of_settled (follows_onHead fun b => ?_)
    repeat' split
    all_goals first
      | exact follows_refuse _ _
      | exact follows_fail _ _
  intro c d a ha
  obtain ⟨b, hb⟩ := hnever ha
  simp only [onHead] at hb
  split at hb
  · cases hb
  · cases hb

end Decoder

/-! ## Items and members -/

section Containers

variable {item : Nat → σ → Option (Decoder σ)} {item' : Nat → τ → Option (Decoder τ)}
  {member : String → σ → Decoder σ} {member' : String → τ → Decoder τ}

theorem readItems_follows (h : ∀ i s t, ∃ D E, item i s = some D ∧ item' i t = some E ∧ D.Follows E)
    (t : τ) {v : Nat × σ} (hr : readItems item i s c = .ok (v, d)) :
    ∃ w, readItems item' i t c = .ok (w, d) := by
  fun_induction readItems item i s c generalizing t with
  | case1 i s c hnone =>
    obtain ⟨D, E, hD, -⟩ := h i s t
    cases hnone.symm.trans hD
  | case2 => cases hr
  | case3 i s c D hD d' hn =>
    cases hr
    obtain ⟨-, E, -, hE, -⟩ := h i s t
    exact ⟨_, readItems_last hE hn⟩
  | case4 => cases hr
  | case5 i s c D hD d' hn s' e he ih =>
    obtain ⟨D', E, hD', hE, hfollows⟩ := h i s t
    obtain rfl := Option.some.inj (hD.symm.trans hD')
    obtain ⟨t', ht'⟩ := hfollows he
    obtain ⟨w, hw⟩ := ih t' hr
    exact ⟨w, (readItems_more hE hn ht').trans hw⟩

theorem readMembers_follows (h : ∀ key s t, (member key s).Follows (member' key t)) (t : τ)
    {first : Bool} {s' : σ} (hr : readMembers member first s c = .ok (s', d)) :
    ∃ t', readMembers member' first t c = .ok (t', d) := by
  fun_induction readMembers member first s c generalizing t with
  | case2 first s c d' hn =>
    cases hr
    exact ⟨_, readMembers_last hn⟩
  | case5 first s c d' hn key e hk u f hu ih =>
    obtain ⟨t', ht'⟩ := h key s t hu
    obtain ⟨w, hw⟩ := ih t' hr
    exact ⟨w, (readMembers_more hn hk ht').trans hw⟩
  | case1 | case3 | case4 => cases hr

theorem arrayOf_follows (h : ∀ i s t, ∃ D E, item i s = some D ∧ item' i t = some E ∧ D.Follows E)
    (s : σ) (t : τ) : (Decoder.arrayOf item s).Follows (Decoder.arrayOf item' t) := by
  intro c d v hv
  simp only [Decoder.arrayOf, Decoder.afterHead, readArray] at hv ⊢
  split at hv
  · cases hv
  · split at hv
    · cases hv
    · next hitems =>
      obtain ⟨w, hw⟩ := readItems_follows h t hitems
      rw [hw]
      dsimp only
      split at hv
      · cases hv
      · next hclose =>
        cases hv
        exact ⟨w, rfl⟩

theorem objectOf_follows (h : ∀ key s t, (member key s).Follows (member' key t)) (s : σ) (t : τ) :
    (Decoder.objectOf member s).Follows (Decoder.objectOf member' t) := by
  intro c d v hv
  simp only [Decoder.objectOf, Decoder.afterHead, readObject] at hv ⊢
  split at hv
  · cases hv
  · split at hv
    · cases hv
    · next hmembers =>
      obtain ⟨w, hw⟩ := readMembers_follows h t hmembers
      rw [hw]
      dsimp only
      split at hv
      · cases hv
      · next hclose =>
        cases hv
        exact ⟨w, rfl⟩

end Containers

/-! ## Tagged values -/

namespace Tagged

variable {known : List String} {expected : String} {text : Bytes} {t : Tagged}

theorem follows_tagShape (known : List String) (array object : Decoder Json) :
    (tagShape known).Follows (Decoder.valueWith array object) := by
  refine Decoder.Follows.of_settled (Decoder.follows_onHead fun b => ?_)
  split
  · next hb =>
    subst hb
    exact (Decoder.follows_refl Decoder.quoted).of_refine.map
  · exact Decoder.follows_mismatch _ _

theorem follows_valueTag (known : List String) (n : Nat) :
    (tagShape known).Follows (Decoder.value n) := by
  cases n with
  | zero => exact follows_tagShape known _ _
  | succ n => exact follows_tagShape known _ _

theorem follows_member (known : List String) (k : String) (p : Partial (String × Json)) (ms : Object) :
    (member known k p).Follows
      ((Decoder.value (deepest - 1)).map fun j => (k, j) :: ms).afterColon := by
  rw [member]
  split
  · split
    · exact Decoder.follows_fail _ _
    · exact ((follows_valueTag known _).of_map.of_under _).map.afterColon
  · exact (Decoder.follows_refl _).of_map.map.afterColon

theorem follows_item (known : List String) (i : Nat) (p : Partial Json) (js : List Json) :
    ∃ D E, item known i p = some D ∧ some ((Decoder.value (deepest - 1)).map (· :: js)) = some E ∧
      D.Follows E := by
  refine ⟨_, _, rfl, rfl, ?_⟩
  split
  · exact ((follows_valueTag known _).of_map.of_under _).map
  · exact (Decoder.follows_refl _).of_map.map

theorem follows_decode (expected : String) (known : List String) :
    (decode expected known).Follows (Decoder.value deepest) := by
  show (decode expected known).Follows (Decoder.value (deepest - 1 + 1))
  refine Decoder.Follows.of_settled (Decoder.follows_onHead fun b => ?_)
  split
  · next hb =>
    subst hb
    exact (objectOf_follows (follows_member known) (none, []) []).of_refine.map.map
  · split
    · next hb =>
      subst hb
      exact (arrayOf_follows (follows_item known) (none, []) []).of_refine.map
    · exact Decoder.follows_mismatch _ _

/-- **A tagged value is what the value of its text says**, and the text is JSON. -/
theorem parse_eq_ok_iff : (decode expected known).parse text = .ok t ↔
    ∃ j, Document deepest j text ∧ ofJson expected known j = .ok t := by
  constructor
  · intro h
    obtain ⟨c, hrun, hblanks⟩ := Decoder.parse_eq_ok_iff.1 h
    obtain ⟨j, hj⟩ := follows_decode expected known hrun
    have hdocument : Document deepest j text :=
      parse_value_eq_ok_iff.1 (Decoder.parse_eq_ok_iff.2 ⟨c, hj, hblanks⟩)
    refine ⟨j, hdocument, ?_⟩
    cases hsays : ofJson expected known j with
    | error m =>
      obtain ⟨e, he, -⟩ := hdocument.parse_of_raises (raises_of_ofJson (Nat.le_refl _) hsays)
      cases h.symm.trans he
    | ok t' =>
      have hsame := hdocument.parse_of_makes (makes_of_ofJson (Nat.le_refl _) hsays)
      exact congrArg Except.ok (Except.ok.inj (hsame.symm.trans h))
  · rintro ⟨j, hj, hsays⟩
    exact hj.parse_of_makes (makes_of_ofJson (Nat.le_refl _) hsays)

end Tagged

end IndexFeed.Json
