import IndexFeed.Proofs.Json.Completeness
import IndexFeed.Proofs.Json.Lookahead
import IndexFeed.Proofs.Json.TextEnd

/-!
# Values and the text behind them

A value, and the fault that is raised where there is none, depend on what has been seen of the text
and on nothing behind it.  Between the items of an array and the members of an object the next octet
is always looked at, and so it is on the way out of a container behind a fault.

What the ways out look at shows in the point where reading stopped and nowhere else.  So a fault in
itself, `Fault.origin`, depends on less of the text than a fault with that point.  An `Aspect` is
either view of faults, and the induction over values is done once for both.
-/

set_option autoImplicit false

namespace IndexFeed.Json

variable {α β σ : Type} {m : Nat} {c c' : Cursor}

/-! ## Leaving a container -/

/-- Where reading stops behind the blanks in a container that is left, and whether the octet there has
been looked at. -/
structure Exit where
  stop : Cursor
  looked : Bool

namespace Exit

/-- How far the text has been seen. -/
def reach (x : Exit) : Nat := x.stop.index + if x.looked then 1 else 0

/-- A way out of a container looks at the next octet, and at nothing that it has not seen. -/
structure Local (exit : Cursor → Exit) : Prop where
  reach : ∀ c : Cursor, c.index + 1 ≤ (exit c).reach
  alike : ∀ {m : Nat} {c c' : Cursor}, c.Agrees m c' → (exit c).reach ≤ m →
    (exit c).stop.Agrees m (exit c').stop ∧ (exit c').looked = (exit c).looked

/-- The way out of an array. -/
def array (c : Cursor) : Exit :=
  if c.rest.head? = some Octet.closeBracket then ⟨c.advance 1, false⟩
  else if c.rest.head? = some Octet.comma then ⟨(c.advance 1).skipBlanks, true⟩
  else ⟨c, true⟩

/-- The way out of an object. -/
def object (c : Cursor) : Exit :=
  if c.rest.head? = some Octet.closeBrace then ⟨c.advance 1, false⟩ else ⟨c, true⟩

theorem local_object : Local object where
  reach c := by
    unfold object
    split
    · exact Nat.le_refl _
    · exact Nat.le_refl _
  alike := by
    intro m c c' h hm
    unfold object at hm ⊢
    split at hm
    · next hclose =>
      have hhead := h.head? hm
      rw [hhead, if_pos hclose, if_pos hclose]
      exact ⟨h.advance 1, rfl⟩
    · next hclose =>
      have hhead := h.head? hm
      rw [hhead, if_neg hclose, if_neg hclose]
      exact ⟨h, rfl⟩

theorem local_array : Local array where
  reach c := by
    unfold array
    split
    · exact Nat.le_refl _
    · split
      · have hle : (c.advance 1).index ≤ (c.advance 1).skipBlanks.index := Nat.le_add_right _ _
        exact Nat.le_trans hle (Nat.le_add_right _ _)
      · exact Nat.le_refl _
  alike := by
    intro m c c' h hm
    unfold array at hm ⊢
    split at hm
    · next hclose =>
      have hhead := h.head? hm
      rw [hhead, if_pos hclose, if_pos hclose]
      exact ⟨h.advance 1, rfl⟩
    · next hclose =>
      split at hm
      · next hcomma =>
        have hle : (c.advance 1).index ≤ (c.advance 1).skipBlanks.index := Nat.le_add_right _ _
        have hhead := h.head? (Nat.le_trans hle (Nat.le_of_lt hm))
        rw [hhead, if_neg hclose, if_neg hclose, if_pos hcomma, if_pos hcomma]
        exact ⟨(h.advance 1).skipBlanks hm, rfl⟩
      · next hcomma =>
        have hhead := h.head? hm
        rw [hhead, if_neg hclose, if_neg hclose, if_neg hcomma, if_neg hcomma]
        exact ⟨h, rfl⟩

end Exit

namespace Fault

/-- Leaves a container. -/
def leave (exit : Cursor → Exit) (f : Fault) : Fault :=
  { f with stop := (exit f.stop.skipBlanks).stop, looked := (exit f.stop.skipBlanks).looked }

theorem leaveArray_eq (f : Fault) : f.leaveArray = f.leave .array := by
  rw [leaveArray, leave, Exit.array]
  cases f.stop.skipBlanks.rest with
  | nil => rfl
  | cons b r =>
    simp only [List.head?_cons, Option.some.injEq]
    split
    · rfl
    · split
      · rfl
      · rfl

theorem leaveObject_eq (f : Fault) : f.leaveObject = f.leave .object := by
  rw [leaveObject, leave, Exit.object]
  cases f.stop.skipBlanks.rest with
  | nil => rfl
  | cons b r =>
    simp only [List.head?_cons, Option.some.injEq]
    split
    · rfl
    · rfl

variable {exit : Cursor → Exit}

theorem le_reach_leave (f : Fault) : (exit f.stop.skipBlanks).reach ≤ (f.leave exit).reach := by
  refine Nat.add_le_add_left ?_ _
  cases hlooked : (exit f.stop.skipBlanks).looked <;> simp [leave, hlooked]

end Fault

/-- Leaving a container behind a fault. -/
theorem LocalAt.leave {exit : Cursor → Exit} {F : Cursor → Outcome α} (hexit : Exit.Local exit)
    (h : LocalAt 1 F c) : LocalAt 1 (fun c => outward (Fault.leave exit) (F c)) c := by
  have hreach : ∀ f : Fault, f.reach ≤ (f.leave exit).reach := by
    intro f
    have hblanks : f.stop.index ≤ f.stop.skipBlanks.index := Nat.le_add_right _ _
    have hout := Nat.le_trans (hexit.reach _) f.le_reach_leave
    rw [Fault.reach]
    split <;> omega
  refine h.out hreach (fun f hf s hs => Nat.le_trans (hf s hs) (hreach f)) ?_
  intro m f f' hm hff'
  have hseen := Nat.le_trans f.le_reach_leave hm
  have hblanks := hff'.stop.skipBlanks (Nat.le_trans (hexit.reach _) hseen)
  obtain ⟨hstop, hlooked⟩ := hexit.alike hblanks hseen
  exact ⟨hff'.cause, hff'.path, hlooked, hstop, hff'.sites⟩

namespace Fault

/-- The fault as it was raised: reading stopped at its place, and no container has been left.  (Misfits
have no place.) -/
def origin (f : Fault) : Fault :=
  { f with
    stop := f.site.elim default Site.cursor
    looked := f.site.any fun s => s.blame == .ahead || s.blame == .besideLook }

theorem origin_leave (exit : Cursor → Exit) (f : Fault) : (f.leave exit).origin = f.origin := rfl

end Fault

theorem Raised.origin {f : Fault} (h : Raised c f) : f.origin = f := by
  cases h with
  | head | atEnd | behind | behindEnd | outOfRange => rfl

/-- A view of faults that sees them as they are raised, and of the way out of a container no more than
a reader has seen. -/
structure Aspect (g : Fault → Fault) : Prop where
  raised : ∀ f : Fault, f.origin = f → g f = f
  leave : ∀ {α : Type} {exit : Cursor → Exit} {F : Cursor → Outcome α} {c : Cursor},
    Exit.Local exit → LocalAt 1 (fun c => outward g (F c)) c →
      LocalAt 1 (fun c => outward g (outward (Fault.leave exit) (F c))) c

theorem outward_id (o : Outcome α) : outward id o = o := by
  cases o <;> rfl

theorem outward_outward (g h : Fault → Fault) (o : Outcome α) :
    outward g (outward h o) = outward (fun f => g (h f)) o := by
  cases o <;> rfl

theorem outward_onward (g : Fault → Fault) (o : Outcome α) (G : α → Cursor → Outcome β) :
    outward g (onward o G) = onward (outward g o) fun a d => outward g (G a d) := by
  cases o <;> rfl

theorem outward_eq_ok_iff {g : Fault → Fault} {o : Outcome α} {r : α × Cursor} :
    outward g o = .ok r ↔ o = .ok r := by
  cases o with
  | ok r' => exact Iff.rfl
  | error f => exact iff_of_false (fun h => by cases h) fun h => by cases h

namespace Aspect

/-- The whole fault, as it comes out. -/
theorem whole : Aspect id where
  raised _ _ := rfl
  leave hexit h := by
    simp only [outward_id] at h ⊢
    exact h.leave hexit

/-- The fault in itself, whatever containers have been left. -/
theorem origin : Aspect Fault.origin where
  raised _ h := h
  leave _ h := by
    simp only [outward_outward, Fault.origin_leave]
    exact h

variable {g : Fault → Fault}

/-- A reader that raises its faults itself is the same in all aspects. -/
theorem local_raised (hg : Aspect g) {k : Nat} {F : Cursor → Outcome α} (h : Local k F)
    (hF : ∀ c f, F c = .error f → f.origin = f) : Local k fun c => outward g (F c) := by
  refine h.congr fun c => ?_
  cases hrun : F c with
  | ok r => rfl
  | error f => exact congrArg Except.error (hg.raised f (hF c f hrun))

end Aspect

/-! ## Between items and members -/

/-- Looks at the octet behind the blanks, and goes on with what there is to do in front of it, or at
the end of the text. -/
def headed (N : Cursor → Outcome α) (G : UInt8 → Cursor → Outcome α) (c : Cursor) : Outcome α :=
  match c.skipBlanks.rest with
  | [] => N c.skipBlanks
  | b :: _ => G b c.skipBlanks

theorem local_headed {N : Cursor → Outcome α} {G : UInt8 → Cursor → Outcome α} (hN : Local 1 N)
    (hG : ∀ b, Local 1 (G b)) : Local 1 (headed N G) := by
  have hpeek : Local 1 fun c => match c.rest with
      | [] => N c
      | b :: _ => G b c := fun c => .peek (fun _ => hN c) (fun b _ _ => hG b c) fun _ => rfl
  exact fun c => .blanks (hpeek _)

theorem local_ahead (cause : Cause) : Local 1 fun c => (.error (c.ahead cause) : Outcome α) :=
  fun _ => .ahead (Nat.le_refl 1)

/-- Looks for an item behind a comma. -/
def itemBehindComma : Cursor → Outcome Bool :=
  headed (fun c => .error (c.ahead .endInValue)) fun b c =>
    if b = Octet.closeBracket then .error (c.ahead .trailingComma) else .ok (true, c)

theorem local_itemBehindComma : Local 1 itemBehindComma :=
  local_headed (local_ahead _) fun _ _ => .ite (fun _ => local_ahead _ _) fun _ => .pure

theorem local_nextItem (first : Bool) : Local 1 (nextItem first) :=
  local_headed (N := fun c => .error (c.ahead .endInList))
    (G := fun b c =>
      if b = Octet.closeBracket then .ok (false, c)
      else if first then .ok (true, c)
      else if b = Octet.comma then itemBehindComma (c.advance 1)
      else .error (c.ahead .expectedListCommaOrEnd))
    (local_ahead _) fun _ c => .ite (fun _ => .pure) fun _ => .ite (fun _ => .pure) fun _ =>
      .ite (fun _ => (local_itemBehindComma _).advance (Nat.le_refl 1) (Nat.le_add_right 1 1))
        fun _ => local_ahead _ c

/-- Looks for a key behind a comma. -/
def keyBehindComma : Cursor → Outcome Bool :=
  headed (fun c => .error (c.ahead .endInValue)) fun b c =>
    if b = Octet.quote then .ok (true, c)
    else if b = Octet.closeBrace then .error (c.ahead .trailingComma)
    else .error (c.ahead .keyNotString)

theorem local_keyBehindComma : Local 1 keyBehindComma :=
  local_headed (local_ahead _) fun _ c => .ite (fun _ => .pure) fun _ =>
    .ite (fun _ => local_ahead _ c) fun _ => local_ahead _ c

theorem local_nextKey (first : Bool) : Local 1 (nextKey first) :=
  local_headed (N := fun c => .error (c.ahead .endInObject))
    (G := fun b c =>
      if b = Octet.closeBrace then .ok (false, c)
      else if first then if b = Octet.quote then .ok (true, c) else .error (c.ahead .keyNotString)
      else if b = Octet.comma then keyBehindComma (c.advance 1)
      else .error (c.ahead .expectedObjectCommaOrEnd))
    (local_ahead _) fun _ c => .ite (fun _ => .pure) fun _ =>
      .ite (fun _ => .ite (fun _ => .pure) fun _ => local_ahead _ c) fun _ =>
        .ite (fun _ => (local_keyBehindComma _).advance (Nat.le_refl 1) (Nat.le_add_right 1 1))
          fun _ => local_ahead _ c

/-- What is wrong behind a comma where a list should end. -/
def closeBehindComma : Cursor → Outcome α :=
  headed (fun c => .error (c.ahead .trailingCharacters)) fun b c =>
    if b = Octet.closeBracket then .error (c.ahead .trailingComma)
    else .error (c.ahead .trailingCharacters)

theorem local_closeBehindComma : Local 1 (closeBehindComma (α := α)) :=
  local_headed (local_ahead _) fun _ c => .ite (fun _ => local_ahead _ c) fun _ => local_ahead _ c

theorem local_closeArray (a : α) : Local 1 (giving a closeArray) := by
  have hclose := local_headed (N := fun c => (.error (c.ahead .endInList) : Outcome α))
    (G := fun b c =>
      if b = Octet.closeBracket then .ok (a, c.advance 1)
      else if b = Octet.comma then closeBehindComma (c.advance 1)
      else .error (c.ahead .trailingCharacters))
    (local_ahead _) fun b c =>
      .ite (fun _ => (LocalAt.pure (k := 1)).advance (Nat.le_refl 1) (Nat.le_add_right 1 1))
        fun _ =>
          .ite (fun _ => (local_closeBehindComma _).advance (Nat.le_refl 1) (Nat.le_add_right 1 1))
            fun _ => local_ahead _ c
  refine hclose.congr fun c => ?_
  rw [giving, closeArray, headed]
  dsimp only
  cases c.skipBlanks.rest with
  | nil => rfl
  | cons b r =>
    by_cases hbracket : b = Octet.closeBracket
    · simp only [if_pos hbracket]
    · by_cases hb : b = Octet.comma
      · simp only [if_neg hbracket, if_pos hb, closeBehindComma, headed]
        cases ((c.skipBlanks.advance 1).skipBlanks).rest with
        | nil => rfl
        | cons d r =>
          by_cases hd : d = Octet.closeBracket
          · simp only [List.head?_cons, hd, if_true]
          · simp only [List.head?_cons, Option.some.injEq, if_neg hd]
      · simp only [if_neg hbracket, if_neg hb]

theorem local_closeObject (a : α) : Local 1 (giving a closeObject) := by
  have hclose := local_headed (N := fun c => (.error (c.ahead .endInObject) : Outcome α))
    (G := fun b c =>
      if b = Octet.closeBrace then .ok (a, c.advance 1)
      else if b = Octet.comma then .error (c.ahead .trailingComma)
      else .error (c.ahead .trailingCharacters))
    (local_ahead _) fun b c =>
      .ite (fun _ => (LocalAt.pure (k := 1)).advance (Nat.le_refl 1) (Nat.le_add_right 1 1))
        fun _ => .ite (fun _ => local_ahead _ c) fun _ => local_ahead _ c
  refine hclose.congr fun c => ?_
  rw [giving, closeObject, headed]
  cases c.skipBlanks.rest with
  | nil => rfl
  | cons b r =>
    by_cases hbrace : b = Octet.closeBrace
    · simp only [if_pos hbrace]
    · by_cases hb : b = Octet.comma
      · simp only [if_neg hbrace, if_pos hb]
      · simp only [if_neg hbrace, if_neg hb]

theorem closeArray_origin {f : Fault} (h : closeArray c = .error f) : f.origin = f := by
  obtain ⟨d, cause, -, rfl⟩ := closeArray_ahead h
  rfl

theorem closeObject_origin {f : Fault} (h : closeObject c = .error f) : f.origin = f := by
  obtain ⟨d, cause, -, rfl⟩ := closeObject_ahead h
  rfl

theorem exists_of_giving_error {a : α} {F : Cursor → Except Fault Cursor} {f : Fault}
    (h : giving a F c = .error f) : F c = .error f := by
  unfold giving at h
  split at h
  · cases h
  · next e =>
    cases h
    exact e

/-! ## Arrays and objects -/

/-- The decoder depends on nothing that it has not seen. -/
def Decoder.Local (D : Decoder α) : Prop := Json.Local 1 D.run

/-- It does so as far as one aspect of its faults goes. -/
def Decoder.LocalIn (g : Fault → Fault) (D : Decoder α) : Prop :=
  Json.Local 1 fun c => outward g (D.run c)

section Containers

variable {item : Nat → σ → Option (Decoder σ)} {member : String → σ → Decoder σ}

theorem readItems_eq {i : Nat} {s : σ} {D : Decoder σ} (hD : item i s = some D) (c : Cursor) :
    readItems item i s c = onward (nextItem (i == 0) c) fun more d =>
      if more then onward (D.run d) fun t e => readItems item (i + 1) t e
      else .ok ((i, s), d) := by
  rw [readItems]
  split
  · next h => rw [hD] at h; cases h
  · next D' h =>
    obtain rfl := Option.some.inj (hD.symm.trans h)
    split
    · next hn => rw [hn, onward]
    · next hn => rw [hn]; rfl
    · next d hn =>
      rw [hn, onward, if_pos rfl]
      split
      · next hr => rw [hr, onward]
      · next hr => rw [hr, onward]

theorem readArray_eq (s : σ) (c : Cursor) :
    readArray item s c = onward (outward (Fault.leave .array) (readItems item 0 s c)) fun r d =>
      giving r closeArray d := by
  rw [readArray]
  cases readItems item 0 s c with
  | error e =>
    dsimp only
    rw [e.leaveArray_eq]
    rfl
  | ok r =>
    obtain ⟨r, d⟩ := r
    rw [outward, onward, giving]
    dsimp only
    cases closeArray d <;> rfl

theorem readMembers_eq (first : Bool) (s : σ) (c : Cursor) :
    readMembers member first s c = onward (nextKey first c) fun more d =>
      if more then onward (Decoder.quoted.run d) fun key e =>
        onward ((member key s).run e) fun t e => readMembers member false t e
      else .ok (s, d) := by
  rw [readMembers]
  split
  · next hn => rw [hn, onward]
  · next hn => rw [hn]; rfl
  · next d hn =>
    rw [hn, onward, if_pos rfl]
    split
    · next hk => rw [hk, onward]
    · next hk =>
      rw [hk, onward]
      split
      · next hm => rw [hm, onward]
      · next hm => rw [hm, onward]

theorem readObject_eq (s : σ) (c : Cursor) :
    readObject member s c =
      onward (outward (Fault.leave .object) (readMembers member true s c)) fun t d =>
        giving t closeObject d := by
  rw [readObject]
  cases readMembers member true s c with
  | error e =>
    dsimp only
    rw [e.leaveObject_eq]
    rfl
  | ok r =>
    obtain ⟨r, d⟩ := r
    rw [outward, onward, giving]
    dsimp only
    cases closeObject d <;> rfl

theorem local_quoted : Decoder.quoted.Local := fun c =>
  .take (E := fun c => c.ahead .endInValue) (G := fun _ => readString) (Nat.zero_le 1)
    (Nat.le_refl 1) (fun _ => local_ahead _ c) (fun _ _ _ => local_readString _) fun _ => rfl

namespace Aspect

variable {g : Fault → Fault} (hg : Aspect g)
include hg

theorem local_quoted : Decoder.quoted.LocalIn g :=
  hg.local_raised Json.local_quoted fun _ _ h => (Decoder.quoted_raised h).origin

theorem local_readItems (hitem : ∀ i s D, item i s = some D → D.LocalIn g) (i : Nat) (s : σ) :
    Local 1 fun c => outward g (readItems item i s c) := by
  intro c
  induction hn : c.rest.length using Nat.strongRecOn generalizing i s c with
  | ind n ih =>
    cases hD : item i s with
    | none => exact Local.congr (fun _ => .pure) (fun _ => by rw [readItems_none hD]; rfl) c
    | some D =>
      have hnext := hg.local_raised (local_nextItem (i == 0)) fun _ _ h => (nextItem_raised h).origin
      refine (hnext c).bind (fun more d hd => ?_) fun c => by rw [readItems_eq hD, outward_onward]
      have hcd := nextItem_le (outward_eq_ok_iff.1 hd)
      cases more with
      | false => exact .pure
      | true =>
        refine (hitem i s D hD d).bind (fun t e ht => ?_) fun c => outward_onward g _ _
        have hlt := Cursor.lt_of_le_of_lt hcd (D.consumes (outward_eq_ok_iff.1 ht))
        exact ih _ (hn ▸ Cursor.length_rest_lt hlt) (i + 1) t e rfl

theorem local_readArray (hitem : ∀ i s D, item i s = some D → D.LocalIn g) (s : σ) :
    Local 1 fun c => outward g (readArray item s c) := by
  intro c
  have hitems := hg.leave Exit.local_array (hg.local_readItems hitem 0 s c)
  refine hitems.bind (fun r d _ => ?_) fun c => by rw [readArray_eq, outward_onward]
  exact hg.local_raised (local_closeArray r)
    (fun _ _ h => closeArray_origin (exists_of_giving_error h)) d

theorem local_readMembers (hmember : ∀ key s, (member key s).LocalIn g) (first : Bool) (s : σ) :
    Local 1 fun c => outward g (readMembers member first s c) := by
  intro c
  induction hn : c.rest.length using Nat.strongRecOn generalizing first s c with
  | ind n ih =>
    have hnext := hg.local_raised (local_nextKey first) fun _ _ h => (nextKey_raised h).origin
    refine (hnext c).bind (fun more d hd => ?_) fun c => by rw [readMembers_eq, outward_onward]
    have hcd := nextKey_le (outward_eq_ok_iff.1 hd)
    cases more with
    | false => exact .pure
    | true =>
      refine (hg.local_quoted d).bind (fun key e hk => ?_) fun c => outward_onward g _ _
      refine (hmember key s e).bind (fun t f ht => ?_) fun c => outward_onward g _ _
      have hlt := Cursor.lt_of_le_of_lt hcd (Cursor.lt_trans
        (Decoder.quoted.consumes (outward_eq_ok_iff.1 hk))
        ((member key s).consumes (outward_eq_ok_iff.1 ht)))
      exact ih _ (hn ▸ Cursor.length_rest_lt hlt) false t f rfl

theorem local_readObject (hmember : ∀ key s, (member key s).LocalIn g) (s : σ) :
    Local 1 fun c => outward g (readObject member s c) := by
  intro c
  have hmembers := hg.leave Exit.local_object (hg.local_readMembers hmember true s c)
  refine hmembers.bind (fun t d _ => ?_) fun c => by rw [readObject_eq, outward_onward]
  exact hg.local_raised (local_closeObject t)
    (fun _ _ h => closeObject_origin (exists_of_giving_error h)) d

end Aspect

end Containers

/-! ## Values -/

namespace Decoder

variable {D : Decoder α} {g : Fault → Fault}

theorem LocalIn.map (h : D.LocalIn g) (f : α → β) : (D.map f).LocalIn g := fun c =>
  (h c).map (g := f) fun c => by
    rw [Decoder.map]
    dsimp only
    cases D.run c <;> rfl

theorem local_literal (word : Bytes) (a : α) : (literal word a).Local := fun c =>
  .take (E := fun c => c.ahead .endInValue) (G := fun _ => giving a (takeWord word))
    (Nat.zero_le 1) (Nat.le_refl 1) (fun _ => local_ahead _ c)
    (fun _ _ _ => local_takeWord word a _) fun _ => rfl

theorem local_afterHead {F : Cursor → Outcome α}
    (keeps : ∀ {c : Cursor} {a : α} {d : Cursor}, F c = .ok (a, d) → c ≤ d) (h : Json.Local 1 F) :
    (afterHead F keeps).Local := fun c =>
  .take (E := fun c => c.ahead .endInValue) (G := fun _ => F) (Nat.le_refl 1) (Nat.le_refl 1)
    (fun _ => local_ahead _ c) (fun _ _ _ => h _) fun _ => rfl

theorem local_minusNumber : minusNumber.Local :=
  local_afterHead (fun h => Cursor.le_of_lt (readNumber_lt h)) (local_readNumber true)

section Aspects

variable (hg : Aspect g)
include hg

theorem localIn_fail_ahead (cause : Cause) : (fail (·.ahead cause) : Decoder α).LocalIn g :=
  hg.local_raised (local_ahead cause) fun c f h => by cases h; rfl

theorem localIn_onHead {atEnd : Cause} {F : UInt8 → Decoder α} (h : ∀ b, (F b).LocalIn g) :
    (onHead atEnd F).LocalIn g := by
  refine (local_headed (local_ahead atEnd) h).congr fun c => ?_
  rw [onHead, headed]
  dsimp only
  cases c.skipBlanks.rest with
  | nil => exact congrArg Except.error (hg.raised _ rfl)
  | cons b r => rfl

theorem localIn_afterHead {F : Cursor → Outcome α}
    (keeps : ∀ {c : Cursor} {a : α} {d : Cursor}, F c = .ok (a, d) → c ≤ d)
    (h : Json.Local 1 fun c => outward g (F c)) : (afterHead F keeps).LocalIn g := by
  intro c
  refine .take (E := fun c => c.ahead .endInValue) (G := fun _ c => outward g (F c)) (Nat.le_refl 1)
    (Nat.le_refl 1) (fun _ => local_ahead _ c) (fun _ _ _ => h _) fun c => ?_
  rw [afterHead]
  dsimp only
  cases c.rest with
  | nil => exact congrArg Except.error (hg.raised _ rfl)
  | cons b r => rfl

theorem LocalIn.afterColon (h : D.LocalIn g) : D.afterColon.LocalIn g := by
  refine localIn_onHead hg fun b => ?_
  split
  · exact localIn_afterHead hg (fun h => Cursor.le_of_lt (D.consumes h)) h
  · exact localIn_fail_ahead hg _

theorem localIn_valueWith {array object : Decoder Json} (ha : array.LocalIn g)
    (ho : object.LocalIn g) : (valueWith array object).LocalIn g := by
  have hliteral : ∀ (word : Bytes) (j : Json), (literal word j).LocalIn g := fun word j =>
    hg.local_raised (local_literal word j) fun _ _ h => (literal_raised h).origin
  have hminus : minusNumber.LocalIn g :=
    hg.local_raised local_minusNumber fun _ _ h => (minusNumber_raised h).origin
  have hdigits : digitNumber.LocalIn g :=
    hg.local_raised (local_readNumber false) fun _ _ h => (readNumber_raised h).origin
  refine localIn_onHead hg fun b => ?_
  iterate 3
    split
    · exact hliteral _ _
  split
  · exact hminus.map _
  split
  · exact hdigits.map _
  split
  · exact hg.local_quoted.map _
  split
  · exact ha
  split
  · exact ho
  · exact localIn_fail_ahead hg _

theorem LocalIn.arrayAround {value : Decoder Json} (h : value.LocalIn g) :
    (arrayAround value).LocalIn g := by
  refine LocalIn.map (localIn_afterHead hg _ (hg.local_readArray ?_ [])) _
  rintro i items _ ⟨⟩
  exact h.map _

theorem LocalIn.membersAround {value : Decoder Json} (h : value.LocalIn g) :
    (membersAround value).LocalIn g :=
  LocalIn.map (localIn_afterHead hg _
    (hg.local_readObject (fun _ _ => LocalIn.afterColon hg (h.map _)) [])) _

/-- Values of any nesting depend on nothing that has not been seen. -/
theorem localIn_value (depth : Nat) : (value depth).LocalIn g := by
  induction depth with
  | zero => exact localIn_valueWith hg (localIn_fail_ahead hg _) (localIn_fail_ahead hg _)
  | succ depth ih =>
    exact localIn_valueWith hg (LocalIn.arrayAround hg ih) ((LocalIn.membersAround hg ih).map _)

/-- So do the elements of a database. -/
theorem localIn_element : element.LocalIn g :=
  (LocalIn.membersAround hg (localIn_value hg _)).map _

end Aspects

theorem local_element : element.Local := by
  have hwhole := localIn_element Aspect.whole
  simp only [LocalIn, outward_id] at hwhole
  exact hwhole

/-- An element is read up to its closing brace, and nothing behind the brace is looked at. -/
theorem element_exact {o : Object} {d : Cursor} {r : Bytes} (hr : c.rest = Octet.openBrace :: r)
    (h : element.run c = .ok (o, d)) {m : Nat} {c' : Cursor} (hagree : c.Agrees m c')
    (hm : d.index ≤ m) : ∃ d', element.run c' = .ok (o, d') ∧ d.Agrees m d' := by
  obtain ⟨ms, hmembers, rfl⟩ := map_eq_ok_iff.1 h
  obtain ⟨p, ht, hw⟩ := membersAround_sound (value_sound _) hr hmembers
  obtain ⟨r', hr', hd⟩ := hagree.append ht.1 (ht.2 ▸ hm)
  have ht' : c'.Takes p ⟨c'.index + p.length, r'⟩ := ⟨hr', rfl⟩
  refine ⟨_, map_eq_ok_iff.2 ⟨ms, membersAround_complete hw ht', rfl⟩, ?_⟩
  rwa [← ht.2] at hd

end Decoder

end IndexFeed.Json
