import IndexFeed.Proofs.Json.Unread

/-!
# Elements of texts that break off

Where a text breaks off inside an element, reading comes to its end and finds that it ends too early,
or it finds a numeral there that is out of range.  Every other fault is raised in front of the end,
and then it is the same fault whatever might have followed: its cause, its place and the way to it do
not depend on the part that is missing.

`Surfaces` says what comes out of a reader, with one lemma for each way in which readers are put
together; the two sorts of faults are told apart in `Surfaces.atEnd_or_inside`.
-/

set_option autoImplicit false

namespace IndexFeed.Json

variable {α β σ : Type} {c d : Cursor} {f : Fault} {cause : Cause} {b : UInt8} {r : Bytes}

theorem Cursor.index_add_length (h : c ≤ d) :
    d.index + d.rest.length = c.index + c.rest.length := by
  obtain ⟨n, hn, rfl⟩ := h
  rw [length_rest_advance]
  show c.index + n + (c.rest.length - n) = c.index + c.rest.length
  omega

/-! ## What comes out of a reader -/

/-- What comes out of a reader that starts at `c`: a fault raised from there on.  If it was raised at
the end of the text, the ways out of containers have not moved it. -/
structure Surfaces (c : Cursor) (f : Fault) : Prop where
  raised : Raised c f.origin
  stop : f.origin.stop.rest = [] → f.stop = f.origin.stop

namespace Surfaces

theorem of_raised (h : Raised c f) : Surfaces c f := by
  refine ⟨?_, fun _ => ?_⟩
  · rw [h.origin]
    exact h
  · rw [h.origin]

theorem of_le (h : Surfaces d f) (hle : c ≤ d) : Surfaces c f := ⟨h.raised.of_le hle, h.stop⟩

/-- Leaving a container, where there is nothing to be taken at the end of the text. -/
theorem leave {exit : Cursor → Exit} (hexit : ∀ d : Cursor, d.rest = [] → (exit d).stop = d)
    (h : Surfaces c f) : Surfaces c (f.leave exit) := by
  refine ⟨h.raised, fun hnil => ?_⟩
  rw [Fault.origin_leave] at hnil ⊢
  have hstop := h.stop hnil
  have hrest : f.stop.rest = [] := by rw [hstop, hnil]
  rw [Fault.leave, Cursor.skipBlanks_of_nil hrest, hexit _ hrest, hstop]

theorem leave_array (h : Surfaces c f) : Surfaces c (f.leave .array) :=
  h.leave fun d hd => by simp [Exit.array, hd]

theorem leave_object (h : Surfaces c f) : Surfaces c (f.leave .object) :=
  h.leave fun d hd => by simp [Exit.object, hd]

end Surfaces

/-! ## Arrays and objects -/

/-- Whatever the decoder raises surfaces. -/
def Decoder.Surfaces (D : Decoder α) : Prop :=
  ∀ c f, D.run c = .error f → Json.Surfaces c f

/-- What the decoder raises surfaces where an octet has been looked at. -/
def Decoder.SurfacesAhead (D : Decoder α) : Prop :=
  ∀ c b r f, c.rest = b :: r → D.run c = .error f → Json.Surfaces c f

theorem Decoder.Surfaces.ahead {D : Decoder α} (h : D.Surfaces) : D.SurfacesAhead :=
  fun c _ _ f _ hrun => h c f hrun

section Containers

variable {item : Nat → σ → Option (Decoder σ)} {member : String → σ → Decoder σ}

theorem readItems_surfaces (hitem : ∀ i s D, item i s = some D → D.Surfaces) {i : Nat} {s : σ}
    (h : readItems item i s c = .error f) : Surfaces c f := by
  fun_induction readItems item i s c with
  | case1 => cases h
  | case2 i s c D hD e hn =>
    cases h
    exact .of_raised (nextItem_raised hn)
  | case3 => cases h
  | case4 i s c D hD d hn e hr =>
    cases h
    exact (hitem i s D hD d _ hr).of_le (nextItem_le hn)
  | case5 i s c D hD d hn t e hr ih =>
    exact (ih h).of_le (Cursor.le_trans (nextItem_le hn) (Cursor.le_of_lt (D.consumes hr)))

/-- If there is always room for another item, items end at a closing bracket. -/
theorem readItems_closes (hitem : ∀ i s, item i s ≠ none) {i : Nat} {s : σ} {v : Nat × σ}
    (h : readItems item i s c = .ok (v, d)) : ∃ e, closeArray d = .ok e := by
  fun_induction readItems item i s c with
  | case1 i s c hnone => exact absurd hnone (hitem i s)
  | case2 => cases h
  | case3 i s c D hD d' hn =>
    cases h
    obtain ⟨hblanks, t, ht⟩ := nextItem_false_sound hn
    exact ⟨_, closeArray_complete (by rw [hblanks, Cursor.skipBlanks_skipBlanks]) ht⟩
  | case4 => cases h
  | case5 i s c D hD d' hn t e hr ih => exact ih h

theorem readArray_surfaces (hsome : ∀ i s, item i s ≠ none)
    (hitem : ∀ i s D, item i s = some D → D.Surfaces) {s : σ}
    (h : readArray item s c = .error f) : Surfaces c f := by
  unfold readArray at h
  split at h
  · next e he =>
    cases h
    rw [e.leaveArray_eq]
    exact (readItems_surfaces hitem he).leave_array
  · next hok =>
    obtain ⟨e, hclose⟩ := readItems_closes hsome hok
    rw [hclose] at h
    cases h

theorem readMembers_surfaces (hmember : ∀ key s, (member key s).Surfaces) {first : Bool} {s : σ}
    (h : readMembers member first s c = .error f) : Surfaces c f := by
  fun_induction readMembers member first s c with
  | case1 first s c e hn =>
    cases h
    exact .of_raised (nextKey_raised hn)
  | case2 => cases h
  | case3 first s c d hn e hk =>
    cases h
    exact .of_le (.of_raised (Decoder.quoted_raised hk)) (nextKey_le hn)
  | case4 first s c d hn key e hk f' hm =>
    cases h
    exact (hmember key s e _ hm).of_le
      (Cursor.le_trans (nextKey_le hn) (Cursor.le_of_lt (Decoder.quoted.consumes hk)))
  | case5 first s c d hn key e hk t f' hm ih =>
    exact (ih h).of_le (Cursor.le_trans (nextKey_le hn) (Cursor.le_of_lt
      (Cursor.lt_trans (Decoder.quoted.consumes hk) ((member key s).consumes hm))))

/-- Members end at a closing brace. -/
theorem readMembers_closes {first : Bool} {s t : σ} (h : readMembers member first s c = .ok (t, d)) :
    ∃ e, closeObject d = .ok e := by
  fun_induction readMembers member first s c with
  | case2 first s c d' hn =>
    cases h
    obtain ⟨hblanks, u, hu⟩ := nextKey_false_sound hn
    exact ⟨_, closeObject_complete hu⟩
  | case5 first s c d' hn key e hk t' f' hm ih => exact ih h
  | case1 | case3 | case4 => cases h

theorem readObject_surfaces (hmember : ∀ key s, (member key s).Surfaces) {s : σ}
    (h : readObject member s c = .error f) : Surfaces c f := by
  unfold readObject at h
  split at h
  · next e he =>
    cases h
    rw [e.leaveObject_eq]
    exact (readMembers_surfaces hmember he).leave_object
  · next hok =>
    obtain ⟨e, hclose⟩ := readMembers_closes hok
    rw [hclose] at h
    cases h

end Containers

/-! ## Values -/

namespace Decoder

variable {D : Decoder α}

theorem error_of_map {g : α → β} (h : (D.map g).run c = .error f) : D.run c = .error f := by
  rw [Decoder.map] at h
  dsimp only at h
  split at h
  · cases h
  · next hrun =>
    cases h
    exact hrun

theorem Surfaces.map (h : D.Surfaces) (g : α → β) : (D.map g).Surfaces :=
  fun c f hrun => h c f (error_of_map hrun)

theorem SurfacesAhead.map (h : D.SurfacesAhead) (g : α → β) : (D.map g).SurfacesAhead :=
  fun c b r f hr hrun => h c b r f hr (error_of_map hrun)

/-- Where an octet has been looked at, it is at fault. -/
theorem surfacesAhead_fail (h : cause.category = .malformed) :
    (fail (·.ahead cause) : Decoder α).SurfacesAhead := by
  intro c b r f hr hrun
  cases hrun
  exact .of_raised (.at_head c.le_refl hr h)

theorem surfaces_onHead {atEnd : Cause} {F : UInt8 → Decoder α} (hend : atEnd.category = .early)
    (h : ∀ b, (F b).SurfacesAhead) : (onHead atEnd F).Surfaces := by
  intro c f hrun
  rw [onHead] at hrun
  dsimp only at hrun
  split at hrun
  · next hnil =>
    cases hrun
    exact .of_raised (.atEnd c.le_skipBlanks hnil hend)
  · next b r hr => exact (h b c.skipBlanks b r f hr hrun).of_le c.le_skipBlanks

theorem surfaces_afterHead {F : Cursor → Outcome α}
    (keeps : ∀ {c : Cursor} {a : α} {d : Cursor}, F c = .ok (a, d) → c ≤ d)
    (h : ∀ c f, F c = .error f → Json.Surfaces c f) : (afterHead F keeps).Surfaces := by
  intro c f hrun
  rw [afterHead] at hrun
  dsimp only at hrun
  split at hrun
  · next hnil =>
    cases hrun
    exact .of_raised (.atEnd c.le_refl hnil rfl)
  · next hr => exact (h _ f hrun).of_le (Cursor.le_of_lt (Cursor.lt_tail hr))

theorem Surfaces.afterColon (h : D.Surfaces) : D.afterColon.Surfaces := by
  refine surfaces_onHead rfl fun b => ?_
  split
  · exact (surfaces_afterHead (fun h => Cursor.le_of_lt (D.consumes h)) h).ahead
  · exact surfacesAhead_fail rfl

theorem surfaces_valueWith {array object : Decoder Json} (ha : array.SurfacesAhead)
    (ho : object.SurfacesAhead) : (valueWith array object).Surfaces := by
  have hliteral : ∀ (word : Bytes) (j : Json), (literal word j).Surfaces :=
    fun word j c f h => .of_raised (literal_raised h)
  have hminus : minusNumber.Surfaces := fun c f h => .of_raised (minusNumber_raised h)
  have hdigits : digitNumber.Surfaces := fun c f h => .of_raised (readNumber_raised h)
  have hquoted : quoted.Surfaces := fun c f h => .of_raised (quoted_raised h)
  refine surfaces_onHead rfl fun b => ?_
  iterate 3
    split
    · exact (hliteral _ _).ahead
  split
  · exact (hminus.map _).ahead
  split
  · exact (hdigits.map _).ahead
  split
  · exact (hquoted.map _).ahead
  split
  · exact ha
  split
  · exact ho
  · exact surfacesAhead_fail rfl

theorem Surfaces.arrayAround {value : Decoder Json} (h : value.Surfaces) :
    (arrayAround value).Surfaces := by
  refine Surfaces.map (surfaces_afterHead _ fun c f hrun => readArray_surfaces ?_ ?_ hrun) _
  · exact fun i s => Option.some_ne_none _
  · rintro i items _ ⟨⟩
    exact h.map _

theorem Surfaces.membersAround {value : Decoder Json} (h : value.Surfaces) :
    (membersAround value).Surfaces :=
  Surfaces.map (surfaces_afterHead _ fun _ _ hrun =>
    readObject_surfaces (fun _ _ => Surfaces.afterColon (h.map _)) hrun) _

/-- Values of any nesting, brackets that nest too deep included. -/
theorem surfaces_value (depth : Nat) : (value depth).Surfaces := by
  induction depth with
  | zero => exact surfaces_valueWith (surfacesAhead_fail rfl) (surfacesAhead_fail rfl)
  | succ depth ih => exact surfaces_valueWith ih.arrayAround.ahead (ih.membersAround.map _).ahead

theorem surfaces_element : element.Surfaces := (surfaces_value _).membersAround.map _

end Decoder

/-! ## The two sorts of faults -/

/-- Reading has come to the end of a text, where it is too early to end, or where the numeral in front
of it is out of range. -/
structure Fault.AtEnd (text : Bytes) (f : Fault) : Prop where
  reachesEnd : f.reachesEnd = true
  stop : f.stop.index = text.length
  rest : f.stop.rest = []
  cause : f.cause.category = .early ∨ f.cause = .numberOutOfRange ∧ EndsOutOfRange text

/-- Reading has found a fault before it came to the end of a text. -/
structure Fault.Inside (text : Bytes) (f : Fault) : Prop where
  reachesEnd : f.reachesEnd = false
  cause : f.cause.category ≠ .early
  reach : f.origin.reach ≤ text.length

/-- What is raised is raised at the end of the text or in front of it. -/
theorem Raised.atEnd_or_inside {text : Bytes} (h : Raised (.start text) f) :
    f.AtEnd text ∨ f.Inside text := by
  have hend : ∀ {d : Cursor}, Cursor.start text ≤ d → d.index + d.rest.length = text.length := by
    intro d hd
    exact (Cursor.index_add_length hd).trans (Nat.zero_add _)
  have hindex : ∀ {d : Cursor}, Cursor.start text ≤ d → d.rest = [] → d.index = text.length := by
    intro d hd hnil
    have := hend hd
    rwa [hnil] at this
  have hlt : ∀ {d : Cursor}, Cursor.start text ≤ d → d.rest ≠ [] → d.index + 1 ≤ text.length := by
    intro d hd hne
    have hlength := hend hd
    have hpos := List.length_pos_iff.2 hne
    omega
  have hreach : f.origin.reach = f.reach := by rw [h.origin]
  cases h with
  | @head d cause hd hne hcause =>
    refine .inr ⟨?_, by simp [Cursor.ahead, hcause], ?_⟩
    · simp [Fault.reachesEnd, Cursor.ahead, hne]
    · rw [hreach]
      exact hlt hd hne
  | @atEnd d cause hd hnil hcause =>
    refine .inl ⟨?_, hindex hd hnil, hnil, .inl hcause⟩
    simp [Fault.reachesEnd, Cursor.ahead, hnil]
  | @behind d cause back hd hcause =>
    refine .inr ⟨?_, by simp [hcause], ?_⟩
    · simp [Fault.reachesEnd, hcause]
    · have hle := hend hd
      rw [hreach]
      simp only [Fault.reach, hcause]
      exact Nat.le_trans (Nat.le_add_right _ _) (Nat.le_of_eq hle)
  | @behindEnd d cause hd hnil hcause =>
    refine .inl ⟨?_, hindex hd hnil, hnil, .inl hcause⟩
    simp [Fault.reachesEnd, Cursor.behind, hnil, hcause]
  | @outOfRange d hd hrange =>
    by_cases hnil : d.rest = []
    · refine .inl ⟨?_, hindex hd hnil, hnil, .inr ⟨rfl, hrange hnil⟩⟩
      simp [Fault.reachesEnd, Cursor.besideLook, hnil]
    · refine .inr ⟨?_, (fun hearly => by cases hearly), ?_⟩
      · simp [Fault.reachesEnd, Cursor.besideLook, hnil]
      · rw [hreach]
        exact hlt hd hnil

/-- So it is behind containers that have been left. -/
theorem Surfaces.atEnd_or_inside {text : Bytes} (h : Surfaces (.start text) f) :
    f.AtEnd text ∨ f.Inside text := by
  rcases h.raised.atEnd_or_inside with hend | hinside
  · have hstop := h.stop hend.rest
    exact .inl ⟨hend.reachesEnd, hstop ▸ hend.stop, hstop ▸ hend.rest, hend.cause⟩
  · exact .inr ⟨hinside.reachesEnd, hinside.cause, hinside.reach⟩

/-- A fault at the end has taken the whole text. -/
theorem Fault.AtEnd.taken {text : Bytes} (h : f.AtEnd text) : f.taken .stream = text.length := by
  simp [Fault.taken, h.rest, h.stop]

namespace Decoder

theorem element_atEnd_or_inside {text : Bytes} (h : element.run (.start text) = .error f) :
    f.AtEnd text ∨ f.Inside text :=
  (surfaces_element _ f h).atEnd_or_inside

/-- **What might have followed makes no difference** to a fault that is raised in front of the end. -/
theorem element_error_append {text : Bytes} (h : element.run (.start text) = .error f)
    (hf : f.Inside text) (more : Bytes) :
    ∃ g, element.run (.start (text ++ more)) = .error g ∧
      g.report .stream (text ++ more) = f.report .stream text := by
  have hlocal := localIn_element Aspect.origin (.start text)
  have hrun : outward Fault.origin (element.run (.start text)) = .error f.origin := by
    rw [h, outward]
  have hagree : (Cursor.start text).Agrees text.length (.start (text ++ more)) := by
    refine ⟨rfl, ?_⟩
    simp [Cursor.start]
  have halike := hlocal.alike hagree (by rw [hrun]; exact hf.reach)
  rw [hrun] at halike
  obtain ⟨g', hg', hfg⟩ := halike.error
  cases hmore : element.run (.start (text ++ more)) with
  | ok r =>
    rw [hmore] at hg'
    cases hg'
  | error g =>
    rw [hmore] at hg'
    cases hg'
    refine ⟨g, rfl, ?_⟩
    exact hfg.report hf.reach (hlocal.placed _ hrun) (by simp)

end Decoder

end IndexFeed.Json
