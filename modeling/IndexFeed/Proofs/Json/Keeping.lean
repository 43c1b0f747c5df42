import IndexFeed.Proofs.Json.Raising
import IndexFeed.Proofs.Json.Size

/-!
# What decoders keep to

A decoder gives a value or raises a fault.  `D.Keeps n k Q ps` bounds both by the octets that there
are: from a budget of `k` and the octets left, at most `n` together, the value uses up a part that is
enough for `Q`, and a misfit quotes no more than `n` octets and lies on one of the paths `ps`.  The
budget is what a loop has gathered so far, so that each combinator has one rule.
-/

set_option autoImplicit false

namespace IndexFeed.Json

open Fault (plain_ahead)

variable {α β σ : Type} {n k : Nat} {c d : Cursor} {f : Fault}

/-! ## Rules -/

/-- What comes out of reading with a budget of `k` in all: a value and what it needs of the budget,
the octets left being paid for too, or a fault. -/
def Keeps (Q : α → Nat → Prop) (R : Fault → Prop) (k : Nat) : Outcome α → Prop
  | .ok (a, d) => ∃ j, Q a j ∧ j + d.rest.length ≤ k
  | .error f => R f

namespace Decoder

/-- Whatever cursor the decoder starts at, it keeps to the budget and to what faults may quote. -/
def Keeps (D : Decoder α) (n k : Nat) (Q : α → Nat → Prop) (ps : List (List Segment)) : Prop :=
  ∀ c : Cursor, k + c.rest.length ≤ n → Json.Keeps Q (Fault.Quotes n ps) (k + c.rest.length) (D.run c)

variable {D : Decoder α} {Q : α → Nat → Prop} {Q' : β → Nat → Prop} {ps qs : List (List Segment)}

theorem Keeps.of_ok {a : α} (h : D.Keeps n k Q ps) (hc : k + c.rest.length ≤ n)
    (hr : D.run c = .ok (a, d)) : ∃ j, Q a j ∧ j + d.rest.length ≤ k + c.rest.length := by
  have hrun := h c hc
  rw [hr] at hrun
  exact hrun

theorem Keeps.of_error (h : D.Keeps n k Q ps) (hc : k + c.rest.length ≤ n)
    (hr : D.run c = .error f) : f.Quotes n ps := by
  have hrun := h c hc
  rw [hr] at hrun
  exact hrun

theorem Keeps.mono (h : D.Keeps n k Q ps) (hps : ∀ p ∈ ps, p ∈ qs) : D.Keeps n k Q qs := by
  intro c hc
  cases hr : D.run c with
  | error f => exact (h.of_error hc hr).mono hps
  | ok r => exact h.of_ok hc hr

theorem keeps_fail {raise : Cursor → Fault} (h : ∀ c, (raise c).Quotes n ps) :
    (Decoder.fail raise : Decoder α).Keeps n k Q ps := fun c _ => h c

/-- A decoder without a budget, whose value is added to what has been gathered. -/
theorem Keeps.gather {g : α → β} (h : D.Keeps n 0 Q ps) (hg : ∀ a j, Q a j → Q' (g a) (k + j)) :
    (D.map g).Keeps n k Q' ps := by
  intro c hc
  have hc' : 0 + c.rest.length ≤ n := by omega
  rw [map]
  dsimp only
  cases hr : D.run c with
  | error f => exact h.of_error hc' hr
  | ok r =>
    obtain ⟨a, d⟩ := r
    obtain ⟨j, hj, hle⟩ := h.of_ok hc' hr
    exact ⟨k + j, hg a j hj, by omega⟩

theorem Keeps.refine {g : α → Except Misfit β} (h : D.Keeps n k Q ps) (hp : [] ∈ ps)
    (hok : ∀ a b j, Q a j → g a = .ok b → Q' b j)
    (herror : ∀ a m j, j ≤ n → Q a j → g a = .error m → m.Within n) :
    (D.refine g).Keeps n k Q' ps := by
  intro c hc
  rw [Decoder.refine]
  dsimp only
  cases hr : D.run c with
  | error f => exact h.of_error hc hr
  | ok r =>
    obtain ⟨a, d⟩ := r
    obtain ⟨j, hj, hle⟩ := h.of_ok hc hr
    dsimp only
    cases hg : g a with
    | ok b => exact ⟨j, hok a b j hj hg, hle⟩
    | error m => exact Fault.quotes_misfit d (herror a m j (by omega) hj hg) hp

theorem Keeps.mapFault {g : Fault → Fault} (h : D.Keeps n k Q ps)
    (hg : ∀ f, f.Quotes n ps → (g f).Quotes n qs) : (D.mapFault g).Keeps n k Q qs := by
  intro c hc
  rw [Decoder.mapFault]
  dsimp only
  cases hr : D.run c with
  | error f => exact hg f (h.of_error hc hr)
  | ok r => exact h.of_ok hc hr

theorem Keeps.settled (h : D.Keeps n k Q ps) : D.settled.Keeps n k Q ps :=
  h.mapFault fun f hf => hf.of_spec f.settle_spec

theorem Keeps.under (h : D.Keeps n k Q ps) (s : Segment) :
    (D.under s).Keeps n k Q (ps.map (s :: ·)) :=
  h.mapFault fun _ hf => hf.under s

/-- Fewer octets to read, and the same budget. -/
theorem keeps_of_le {o : Outcome α} {R : Fault → Prop} {i j : Nat} (h : Json.Keeps Q R i o)
    (hij : i ≤ j) : Json.Keeps Q R j o := by
  cases o with
  | error f => exact h
  | ok r =>
    obtain ⟨l, hl, hle⟩ := h
    exact ⟨l, hl, Nat.le_trans hle hij⟩

theorem keeps_onHead {atEnd : Cause} {F : UInt8 → Decoder α} (hend : atEnd.category ≠ .misshapen)
    (h : ∀ b, (F b).Keeps n k Q ps) : (Decoder.onHead atEnd F).Keeps n k Q ps := by
  intro c hc
  have hblanks := Cursor.length_rest_le c.le_skipBlanks
  rw [onHead]
  dsimp only
  split
  · exact (plain_ahead _ hend).quotes n ps
  · next b r _ => exact keeps_of_le (h b c.skipBlanks (by omega)) (by omega)

theorem keeps_afterHead {F : Cursor → Outcome α}
    (keeps : ∀ {c : Cursor} {a : α} {d : Cursor}, F c = .ok (a, d) → c ≤ d)
    (h : ∀ c : Cursor, k + c.rest.length + 1 ≤ n →
      Json.Keeps Q (Fault.Quotes n ps) (k + c.rest.length + 1) (F c)) :
    (Decoder.afterHead F keeps).Keeps n k Q ps := by
  intro c hc
  rw [afterHead]
  dsimp only
  split
  · exact (plain_ahead c (by decide)).quotes n ps
  · next b r hr =>
    rw [hr, List.length_cons] at hc ⊢
    exact h ⟨c.index + 1, r⟩ hc

theorem Keeps.afterColon (h : D.Keeps n k Q ps) : D.afterColon.Keeps n k Q ps := by
  refine keeps_onHead (by decide) fun b => ?_
  split
  · exact keeps_afterHead (fun h => Cursor.le_of_lt (D.consumes h)) fun c hc =>
      keeps_of_le (h c (by omega)) (Nat.le_succ _)
  · exact keeps_fail fun c => (plain_ahead c (by decide)).quotes n ps

/-- A decoder of text that raises no misfit. -/
theorem keeps_of_plain (hplain : ∀ c f, D.run c = .error f → f.Plain)
    (hok : ∀ c a d, D.run c = .ok (a, d) → ∃ j, Q a j ∧ j + d.rest.length ≤ c.rest.length) :
    D.Keeps n 0 Q ps := by
  intro c hc
  rw [Nat.zero_add]
  cases hr : D.run c with
  | error f => exact (hplain c f hr).quotes n ps
  | ok r =>
    obtain ⟨a, d⟩ := r
    exact hok c a d hr

/-! ## Containers

What the items of an array or the members of an object have built is paid for by what they have
taken. -/

variable {S : σ → Nat → Prop} {s : σ}

theorem readItems_keeps {item : Nat → σ → Option (Decoder σ)} {i : Nat}
    (hitem : ∀ i s j D, S s j → item i s = some D → D.Keeps n j S ps)
    (hs : S s k) (hc : k + c.rest.length ≤ n) :
    Json.Keeps (fun r : Nat × σ => S r.2) (Fault.Quotes n ps) (k + c.rest.length)
      (readItems item i s c) := by
  fun_induction readItems item i s c generalizing k with
  | case1 => exact ⟨k, hs, Nat.le_refl _⟩
  | case2 i s c D hD e hn => exact (nextItem_raised hn).plain.quotes n ps
  | case3 i s c D hD d hn =>
    exact ⟨k, hs, Nat.add_le_add_left (Cursor.length_rest_le (nextItem_le hn)) k⟩
  | case4 i s c D hD d hn e hr =>
    have hle := Cursor.length_rest_le (nextItem_le hn)
    exact (hitem i s k D hs hD).of_error (by omega) hr
  | case5 i s c D hD d hn t e hr ih =>
    have hle := Cursor.length_rest_le (nextItem_le hn)
    obtain ⟨j, hj, hje⟩ := (hitem i s k D hs hD).of_ok (by omega) hr
    exact keeps_of_le (ih hj (by omega)) (by omega)

theorem keeps_arrayOf {item : Nat → σ → Option (Decoder σ)}
    (hitem : ∀ i s j D, S s j → item i s = some D → D.Keeps n j S ps) (hs : S s k) :
    (Decoder.arrayOf item s).Keeps n k (fun r j => ∃ i, i < j ∧ S r.2 i) ps := by
  refine keeps_afterHead readArray_le fun c hc => ?_
  have hitems := readItems_keeps (c := c) (i := 0) hitem hs (Nat.le_of_succ_le hc)
  rw [readArray]
  split
  · next e hr =>
    rw [hr] at hitems
    exact Fault.Quotes.of_spec hitems e.leaveArray_spec
  · next r d hr =>
    rw [hr] at hitems
    obtain ⟨j, hj, hle⟩ := hitems
    split
    · next e hclose => exact (closeArray_plain hclose).quotes n ps
    · next e hclose =>
      have hend := Cursor.length_rest_le (closeArray_le hclose)
      exact ⟨j + 1, ⟨j, Nat.lt_succ_self j, hj⟩, by omega⟩

theorem readMembers_keeps {member : String → σ → Decoder σ} (first : Bool)
    (hmember : ∀ key s j, S s j →
      (member key s).Keeps n (j + (Utf8.encode key).length) S ps)
    (hs : S s k) (hc : k + c.rest.length ≤ n) :
    Json.Keeps S (Fault.Quotes n ps) (k + c.rest.length) (readMembers member first s c) := by
  fun_induction readMembers member first s c generalizing k with
  | case1 first s c e hn => exact (nextKey_raised hn).plain.quotes n ps
  | case2 first s c d hn =>
    exact ⟨k, hs, Nat.add_le_add_left (Cursor.length_rest_le (nextKey_le hn)) k⟩
  | case3 first s c d hn e hkey => exact (quoted_raised hkey).plain.quotes n ps
  | case4 first s c d hn key e hkey f hr =>
    have hle := Cursor.length_rest_le (nextKey_le hn)
    have hlength := length_le_of_quoted hkey
    exact (hmember key s k hs).of_error (by omega) hr
  | case5 first s c d hn key e hkey t f hr ih =>
    have hle := Cursor.length_rest_le (nextKey_le hn)
    have hlength := length_le_of_quoted hkey
    obtain ⟨j, hj, hjf⟩ := (hmember key s k hs).of_ok (by omega) hr
    exact keeps_of_le (ih hj (by omega)) (by omega)

theorem keeps_objectOf {member : String → σ → Decoder σ}
    (hmember : ∀ key s j, S s j →
      (member key s).Keeps n (j + (Utf8.encode key).length) S ps)
    (hs : S s k) :
    (Decoder.objectOf member s).Keeps n k (fun t j => ∃ i, i < j ∧ S t i) ps := by
  refine keeps_afterHead readObject_le fun c hc => ?_
  have hmembers := readMembers_keeps (c := c) true hmember hs (Nat.le_of_succ_le hc)
  rw [readObject]
  split
  · next e hr =>
    rw [hr] at hmembers
    exact Fault.Quotes.of_spec hmembers e.leaveObject_spec
  · next t d hr =>
    rw [hr] at hmembers
    obtain ⟨j, hj, hle⟩ := hmembers
    split
    · next e hclose => exact (closeObject_plain hclose).quotes n ps
    · next e hclose =>
      have hend := Cursor.length_rest_le (closeObject_le hclose)
      exact ⟨j + 1, ⟨j, Nat.lt_succ_self j, hj⟩, by omega⟩

/-! ## Values -/

/-- What a value of no size takes of the budget. -/
theorem keeps_of_plain_of_zero (hplain : ∀ c f, D.run c = .error f → f.Plain)
    (hq : ∀ a, Q a 0) : D.Keeps n 0 Q ps :=
  keeps_of_plain hplain fun c a d h =>
    ⟨0, hq a, by
      rw [Nat.zero_add]
      exact Nat.le_of_lt (Cursor.length_rest_lt (D.consumes h))⟩

theorem keeps_quoted : quoted.Keeps n 0 (fun s j => (Utf8.encode s).length ≤ j) ps :=
  keeps_of_plain (fun _ _ h => (quoted_raised h).plain) fun _ _ _ h => ⟨_, Nat.le_refl _, length_le_of_quoted h⟩

/-- A value without brackets, or what the decoders given make of a bracket or a brace. -/
theorem keeps_valueWith {array object : Decoder Json} (harray : array.Keeps n 0 (fun _ _ => True) ps)
    (hobject : object.Keeps n 0 (fun _ _ => True) ps) :
    (valueWith array object).Keeps n 0 (fun _ _ => True) ps := by
  have hliteral : ∀ (word : Bytes) (j : Json), (literal word j).Keeps n 0 (fun _ _ => True) ps :=
    fun _ _ => keeps_of_plain_of_zero (fun _ _ h => (literal_raised h).plain) fun _ => trivial
  refine keeps_onHead (by decide) fun b => ?_
  repeat' split
  · exact hliteral _ _
  · exact hliteral _ _
  · exact hliteral _ _
  · exact (keeps_of_plain_of_zero (Q := fun _ _ => True) (fun _ _ h => (minusNumber_raised h).plain)
      fun _ => trivial).gather fun _ _ _ => trivial
  · exact (keeps_of_plain_of_zero (Q := fun _ _ => True) (fun _ _ h => (readNumber_raised h).plain)
      fun _ => trivial).gather fun _ _ _ => trivial
  · exact keeps_quoted.gather fun _ _ _ => trivial
  · exact harray
  · exact hobject
  · exact keeps_fail fun c => (plain_ahead c (by decide)).quotes n ps

/-- By the rules, reading a value raises nothing that would have to lie on a path. -/
theorem value_keeps (depth n : Nat) (ps : List (List Segment)) :
    (value depth).Keeps n 0 (fun _ _ => True) ps := by
  induction depth with
  | zero =>
    have hdeep : (tooDeep : Decoder Json).Keeps n 0 (fun _ _ => True) ps :=
      keeps_fail fun c => (plain_ahead c (by decide)).quotes n ps
    exact keeps_valueWith hdeep hdeep
  | succ depth ih =>
    have harray : (arrayAround (value depth)).Keeps n 0 (fun _ _ => True) ps := by
      refine (keeps_arrayOf (S := fun _ _ => True) ?_ trivial).gather fun _ _ _ => trivial
      intro i items j D _ hD
      obtain rfl := Option.some.inj hD
      exact ih.gather fun _ _ _ => trivial
    have hmembers : (membersAround (value depth)).Keeps n 0 (fun _ _ => True) ps := by
      refine (keeps_objectOf (S := fun _ _ => True) ?_ trivial).gather fun _ _ _ => trivial
      intro key members j _
      exact (ih.gather fun _ _ _ => trivial).afterColon
    exact keeps_valueWith harray (hmembers.gather fun _ _ _ => trivial)

/-- A value is no larger than what is taken for it, and what is no value is no misfit. -/
theorem keeps_value (depth n : Nat) (ps : List (List Segment)) :
    (value depth).Keeps n 0 (fun j b => j.size ≤ b) ps := by
  refine keeps_of_plain (fun c f h => ?_) fun c j d h => ⟨j.size, Nat.le_refl _, size_le_of_value h⟩
  exact ((value_keeps depth (0 + c.rest.length) []).of_error (Nat.le_refl _) h).plain

/-! ## Misfits of text -/

/-- A value of another kind is quoted, unless it is a container. -/
theorem keeps_mismatch {expected : String} (hexpected : Brief expected) (hp : [] ∈ ps) :
    (mismatch expected : Decoder α).Keeps n 0 Q ps := by
  have hreject : ∀ D : Decoder Found, D.Keeps n 0 (fun found j => found.Within j) ps →
      (D.refine fun found => (.error (.kind found expected) : Except Misfit α)).Keeps n 0 Q ps := by
    intro D hD
    refine hD.refine hp (fun _ _ _ _ h => by cases h) fun found m j hj hfound h => ?_
    cases h
    exact ⟨hfound.mono hj, hexpected⟩
  have hliteral : ∀ (word : Bytes) (found : Found), found.Within 0 →
      (literal word found).Keeps n 0 (fun found j => found.Within j) ps := by
    intro word found hfound
    refine keeps_of_plain (fun _ _ h => (literal_raised h).plain) fun c a d h => ⟨0, ?_, ?_⟩
    · rw [literal_value h]
      exact hfound
    · rw [Nat.zero_add]
      exact Nat.le_of_lt (Cursor.length_rest_lt ((literal word found).consumes h))
  have hcontainer : ∀ found : Found, found.Within n →
      (Decoder.fail (α := α) (·.misfit (.kind found expected))).Keeps n 0 Q ps :=
    fun found hfound => keeps_fail fun c => Fault.quotes_misfit c ⟨hfound, hexpected⟩ hp
  refine Keeps.settled (keeps_onHead (by decide) fun b => ?_)
  repeat' split
  · exact hreject _ (hliteral _ _ trivial)
  · exact hreject _ (hliteral _ _ trivial)
  · exact hreject _ (hliteral _ _ trivial)
  · exact hreject _ ((keeps_of_plain_of_zero (Q := fun _ _ => True) (fun _ _ h => (minusNumber_raised h).plain)
      fun _ => trivial).gather fun x j _ => Found.within_ofNumber _ x)
  · exact hreject _ ((keeps_of_plain_of_zero (Q := fun _ _ => True) (fun _ _ h => (readNumber_raised h).plain)
      fun _ => trivial).gather fun x j _ => Found.within_ofNumber _ x)
  · exact hreject _ (keeps_quoted.gather fun s j hs => Nat.le_trans hs (Nat.le_add_left j 0))
  · exact hcontainer .sequence trivial
  · exact hcontainer .map trivial
  · exact keeps_fail fun c => (plain_ahead c (by decide)).quotes n ps

end Decoder

/-! ## Tagged values -/

namespace Tagged

open Decoder

variable {known : List String} {expected : String}

/-- Where a misfit of a tagged value can lie: at the value, or at its tag. -/
def paths : List (List Segment) := [[], [.key key], [.item 0]]

theorem keeps_tagShape (hknown : Brief (Misfit.oneOf known)) :
    (tagShape known).Keeps n 0 (fun _ _ => True) [[]] := by
  refine Keeps.settled (keeps_onHead (by decide) fun b => ?_)
  split
  · refine keeps_quoted.refine List.mem_cons_self (fun _ _ _ _ _ => trivial) ?_
    intro name m j hj hname h
    split at h
    · cases h
    · cases h
      exact ⟨Nat.le_trans hname hj, hknown⟩
  · exact keeps_mismatch (by decide +kernel) List.mem_cons_self

theorem keeps_member (hknown : Brief (Misfit.oneOf known)) (k : String)
    (p : Partial (String × Json)) (j : Nat) (hp : memberSizes p.2 ≤ j) :
    (member known k p).Keeps n (j + (Utf8.encode k).length) (fun p i => memberSizes p.2 ≤ i) paths := by
  unfold member
  split
  · next hk =>
    subst hk
    split
    · refine keeps_fail fun c => Fault.quotes_misfit c ?_ List.mem_cons_self
      exact (by decide +kernel : Brief key)
    · refine Keeps.afterColon (Keeps.mono (((keeps_tagShape hknown).gather ?_).under (.key key)) ?_)
      · intro t i _
        dsimp only
        omega
      · decide
  · refine ((keeps_value _ n paths).gather fun i b hi => ?_).afterColon
    dsimp only [memberSizes]
    omega

theorem keeps_item (hknown : Brief (Misfit.oneOf known)) (i : Nat) (p : Partial Json) (j : Nat)
    (D : Decoder (Partial Json)) (hp : itemSizes p.2 ≤ j) (hD : item known i p = some D) :
    D.Keeps n j (fun p i => itemSizes p.2 ≤ i) paths := by
  obtain rfl := Option.some.inj hD
  split
  · refine Keeps.mono (((keeps_tagShape hknown).gather ?_).under (.item 0)) ?_
    · intro t b _
      dsimp only
      omega
    · decide
  · refine (keeps_value _ n paths).gather fun j' b hj => ?_
    dsimp only [itemSizes]
    omega

/-- The rest of a tagged value is no larger than the text, and a misfit lies at the value or at its
tag. -/
theorem keeps_decode (hknown : Brief (Misfit.oneOf known)) (hexpected : Brief expected) :
    (decode expected known).Keeps n 0 (fun t j => t.body.size ≤ j) paths := by
  have hkey : ∀ (tag : Option String) (body : Json) (t : Tagged),
      (Record.need key tag).map (fun tag => ⟨tag, body⟩) = .ok t → t.body = body := by
    intro tag body t h
    cases tag with
    | none => cases h
    | some tag => cases h; rfl
  have hmissing : ∀ (tag : Option String) (body : Json) (m : Misfit),
      (Record.need key tag).map (fun tag => (⟨tag, body⟩ : Tagged)) = .error m → m.Within n := by
    intro tag body m h
    cases tag with
    | none =>
      cases h
      exact (by decide +kernel : Brief key)
    | some tag => cases h
  refine Keeps.settled (keeps_onHead (by decide) fun b => ?_)
  repeat' split
  · refine (keeps_objectOf (k := 0) (s := (none, [])) (keeps_member hknown) (Nat.le_refl 0)).refine
      List.mem_cons_self ?_ ?_
    · rintro ⟨tag, members⟩ t j ⟨i, hij, hi⟩ h
      rw [hkey tag _ t h, size, memberSizes_reverse]
      exact Nat.succ_le_of_lt (Nat.lt_of_le_of_lt hi hij)
    · rintro ⟨tag, members⟩ m j _ _ h
      exact hmissing tag _ m h
  · refine (keeps_arrayOf (k := 0) (s := (none, [])) (keeps_item hknown) (Nat.le_refl 0)).refine
      List.mem_cons_self ?_ ?_
    · rintro ⟨count, tag, items⟩ t j ⟨i, hij, hi⟩ h
      rw [hkey tag _ t h, size, itemSizes_reverse]
      exact Nat.succ_le_of_lt (Nat.lt_of_le_of_lt hi hij)
    · rintro ⟨count, tag, items⟩ m j _ _ h
      exact hmissing tag _ m h
  · exact keeps_mismatch hexpected List.mem_cons_self

end Tagged

/-! ## Texts -/

/-- The fault behind the error of a text. -/
theorem Decoder.Keeps.parse_error {D : Decoder α} {Q : α → Nat → Prop} {ps : List (List Segment)}
    {text : Bytes} {e : Error} (h : D.Keeps text.length 0 Q ps) (he : D.parse text = .error e) :
    ∃ f : Fault, f.Quotes text.length ps ∧ e = f.report .whole text := by
  unfold Decoder.parse at he
  split at he
  · next f hf =>
    cases he
    exact ⟨f, h.of_error (Nat.le_of_eq (Nat.zero_add _)) hf, rfl⟩
  · split at he
    · next f hf =>
      cases he
      exact ⟨f, (finish_plain hf).quotes _ _, rfl⟩
    · cases he

end IndexFeed.Json
