import IndexFeed.Proofs.Json.Results
import IndexFeed.Proofs.Json.Document
import IndexFeed.Proofs.Json.Skipping

/-!
# Shapes read what they accept

A shape gets its values from text and from JSON values.  The two ways agree: from every text of a
value that the shape accepts, its decoder makes the same as accepting the value does.
-/

set_option autoImplicit false

namespace IndexFeed.Json

open Cursor (Blanks)

variable {α β σ : Type} {c d : Cursor} {n i : Nat} {j : Json} {js : List Json} {ms : Object}
  {p : Bytes} {s t u : σ} {a : α}

/-! ## Decoders -/

namespace Decoder

variable {D : Decoder α}

/-- From every text of a value with at most so many brackets and braces open, the decoder makes
one result. -/
def Makes (D : Decoder α) (n : Nat) (j : Json) (a : α) : Prop :=
  ∀ p, Written n (.value j) p → D.Reads p a

theorem Makes.map {f : α → β} (h : D.Makes n j a) : (D.map f).Makes n j (f a) :=
  fun p hp => (h p hp).map

theorem Makes.refine {f : α → Except Misfit β} {b : β} (h : D.Makes n j a) (hf : f a = .ok b) :
    (D.refine f).Makes n j b := by
  intro p hp c d ht hd
  simp only [Decoder.refine, h p hp c d ht hd, hf]

theorem Makes.mapFault {f : Fault → Fault} (h : D.Makes n j a) : (D.mapFault f).Makes n j a := by
  intro p hp c d ht hd
  simp only [Decoder.mapFault, h p hp c d ht hd]

theorem Makes.settled (h : D.Makes n j a) : D.settled.Makes n j a := h.mapFault

theorem Makes.under (h : D.Makes n j a) (x : Segment) : (D.under x).Makes n j a := h.mapFault

theorem makes_value {m : Nat} (h : n ≤ m) (j : Json) : (Decoder.value m).Makes n j j :=
  fun _ hp _ _ ht hd => value_complete (hp.mono h) ht hd

theorem makes_skip (n : Nat) (j : Json) : Decoder.skip.Makes n j () :=
  fun _ hp _ _ ht hd => skip_complete hp ht hd

/-- Behind the blanks, the decoder that goes with the first octet of the text. -/
theorem makes_onHead {atEnd : Cause} {F : UInt8 → Decoder α}
    (h : ∀ b q (c d : Cursor), Written n (.value j) (b :: q) → c.Takes (b :: q) d → d.Apart →
      (F b).run c = .ok (a, d)) : (Decoder.onHead atEnd F).Makes n j a := by
  intro p hp c d ht hd
  obtain ⟨b, q, rfl, -, -⟩ := hp.head
  simp only [onHead, ht.rest_of_cons]
  exact h b q c.skipBlanks d hp ht hd

/-- At its text there are no blanks to skip. -/
theorem Makes.run (h : D.Makes n j a) (hp : Written n (.value j) p) (ht : c.Takes p d)
    (hd : d.Apart) : D.run c = .ok (a, d) := by
  refine h p hp c d ?_ hd
  obtain ⟨b, q, rfl, hb, -⟩ := hp.head
  rwa [Cursor.skipBlanks_of_head ht.rest_of_cons hb]

end Decoder

/-- An object begins with its brace, which is one that is open. -/
theorem Written.object_head {b : UInt8} {q : Bytes} (h : Written n (.value (.object ms)) (b :: q)) :
    b = Octet.openBrace ∧ ∃ m, n = m + 1 := by
  cases h with
  | emptyObject => exact ⟨rfl, _, rfl⟩
  | object => exact ⟨rfl, _, rfl⟩

theorem Written.array_head {b : UInt8} {q : Bytes} (h : Written n (.value (.array js)) (b :: q)) :
    b = Octet.openBracket ∧ ∃ m, n = m + 1 := by
  cases h with
  | emptyArray => exact ⟨rfl, _, rfl⟩
  | array => exact ⟨rfl, _, rfl⟩

/-! ## Items and members -/

/-- What is made of items one after the other, from the state and the number of the first one on. -/
inductive ItemsMake (item : Nat → σ → Option (Decoder σ)) (n : Nat) :
    Nat → σ → List Json → σ → Prop where
  | nil (i : Nat) (s : σ) : ItemsMake item n i s [] s
  | cons {i : Nat} {s t u : σ} {j : Json} {js : List Json} {D : Decoder σ} :
      item i s = some D → D.Makes n j t → ItemsMake item n (i + 1) t js u →
      ItemsMake item n i s (j :: js) u

/-- What is made of members one after the other. -/
inductive MembersMake (member : String → σ → Decoder σ) (n : Nat) : σ → Object → σ → Prop where
  | nil (s : σ) : MembersMake member n s [] s
  | cons {s t u : σ} {key : String} {j : Json} {ms : Object} {D : Decoder σ} :
      member key s = D.afterColon → D.Makes n j t → MembersMake member n t ms u →
      MembersMake member n s ((key, j) :: ms) u

theorem ItemsMake.read {item : Nat → σ → Option (Decoder σ)} (h : ItemsMake item n i s js t)
    (hp : Written n (.items js) p) : ItemsRead item i s p (i + js.length, t) := by
  induction h generalizing p with
  | nil => cases hp
  | @cons i s t u j js D hD hj hjs ih =>
    cases hp with
    | lastItem ha hw hb =>
      cases hjs
      exact .last ha hw hb hD (hj _ hw)
    | item ha hw hb hq =>
      rw [List.length_cons, Nat.add_comm js.length 1, ← Nat.add_assoc]
      exact .more ha hw hb hD (hj _ hw) (ih hq)

theorem MembersMake.read {member : String → σ → Decoder σ} (h : MembersMake member n s ms t)
    (hp : Written n (.members ms) p) : MembersRead member s p t := by
  induction h generalizing p with
  | nil => cases hp
  | @cons s t u key j ms D hD hj hms ih =>
    cases hp with
    | lastMember ha hk hb he hw hx =>
      cases hms
      exact .last ha hk hb he hw hx hD (hj _ hw)
    | member ha hk hb he hw hx hq => exact .more ha hk hb he hw hx hD (hj _ hw) (ih hq)

theorem ItemsMake.arrayOf {item : Nat → σ → Option (Decoder σ)} (h : ItemsMake item n 0 s js t)
    (hp : Written (n + 1) (.value (.array js)) p) (ht : c.Takes p d) :
    (Decoder.arrayOf item s).run c = .ok ((js.length, t), d) := by
  cases hp with
  | emptyArray ha =>
    cases h
    exact arrayOf_empty ha ht
  | array hp =>
    have hread := h.read hp
    rw [Nat.zero_add] at hread
    exact arrayOf_complete hread ht

theorem MembersMake.objectOf {member : String → σ → Decoder σ} (h : MembersMake member n s ms t)
    (hp : Written (n + 1) (.value (.object ms)) p) (ht : c.Takes p d) :
    (Decoder.objectOf member s).run c = .ok (t, d) := by
  cases hp with
  | emptyObject ha =>
    cases h
    exact objectOf_empty ha ht
  | object hp => exact objectOf_complete (h.read hp) ht

/-! ## Shapes -/

namespace Shape

variable {x : Shape α}

/-- Whatever the shape accepts, its decoder makes the same of every text of it. -/
def Agrees (x : Shape α) : Prop :=
  ∀ (n : Nat) (j : Json) (a : α), x.accept j = .ok a → x.decode.Makes n j a

theorem Agrees.map {f : α → β} (h : x.Agrees) : (x.map f).Agrees := by
  intro n j b hb
  obtain ⟨a, ha, rfl⟩ := map_eq_ok_iff.1 hb
  exact (h n j a ha).map

theorem Agrees.refine {f : α → Except Misfit β} (h : x.Agrees) : (x.refine f).Agrees := by
  intro n j b hb
  obtain ⟨a, ha, hf⟩ := bind_eq_ok_iff.1 hb
  exact (h n j a ha).refine hf

theorem agrees_text : Shape.text.Agrees := by
  intro n j s hs
  cases j with
  | string s' =>
    cases hs
    refine Decoder.Makes.settled (Decoder.makes_onHead fun b q c d hp ht _ => ?_)
    cases hp with
    | string hs =>
      have hrun := quoted_complete hs ht
      obtain ⟨q, bs, hq, -⟩ := hs
      obtain ⟨rfl, -⟩ := List.cons.inj hq
      exact hrun
  | null | bool | number | array | object => cases hs

/-- A number that is found fit. -/
theorem agrees_number {expected : String} {f : Number → Except Misfit α} :
    (Shape.number expected f).Agrees := by
  intro n j a ha
  cases j with
  | number x =>
    refine Decoder.Makes.settled (Decoder.makes_onHead fun b q c d hp ht hd => ?_)
    have hfit : f x = .ok a := ha
    cases hp with
    | number hx =>
      generalize hbq : b :: q = p at hx ht
      cases hx with
      | @plain y _ hy hn =>
        obtain ⟨b', q', hq, hb⟩ := hy.whole.head
        have hhead : b = b' := by
          rw [Numeral.text, hq, List.cons_append] at hbq
          exact (List.cons.inj hbq).1
        subst hhead
        have hminus : b ≠ Octet.minus := by
          rintro rfl
          cases hb
        rw [if_neg hminus, if_pos hb]
        simp only [Decoder.refine, digitNumber_complete hy hn ht hd, hfit]
      | @negative y _ hy hn =>
        obtain ⟨rfl, rfl⟩ := List.cons.inj hbq
        rw [if_pos rfl]
        simp only [Decoder.refine, minusNumber_complete hy hn ht hd, hfit]
  | null | bool | string | array | object => cases ha

/-- The text of a value that is not null does not begin as null does. -/
theorem head_ne_of_ne_null {b : UInt8} {q : Bytes} (h : Written n (.value j) (b :: q))
    (hj : j ≠ .null) : b ≠ Octet.letterN := by
  generalize hbq : b :: q = p at h
  cases h with
  | null => exact absurd rfl hj
  | number hx =>
    obtain ⟨b', q', rfl, hb⟩ := hx.head
    obtain ⟨rfl, -⟩ := List.cons.inj hbq
    rintro rfl
    rcases hb with hb | hb <;> cases hb
  | string hs =>
    obtain ⟨q', bs, rfl, -⟩ := hs
    obtain ⟨rfl, -⟩ := List.cons.inj hbq
    decide
  | truth | falsity | emptyArray | array | emptyObject | object =>
    obtain ⟨rfl, -⟩ := List.cons.inj hbq
    decide

theorem Agrees.optional (h : x.Agrees) : x.optional.Agrees := by
  intro n j a ha
  by_cases hj : j = .null
  · subst hj
    cases ha
    refine Decoder.makes_onHead fun b q c d hp ht _ => ?_
    cases hp with
    | null => exact literal_complete ht
  · have haccept : (x.accept j).map some = .ok a := by
      cases j with
      | null => exact absurd rfl hj
      | bool | number | string | array | object => exact ha
    obtain ⟨v, hv, rfl⟩ := map_eq_ok_iff.1 haccept
    refine Decoder.makes_onHead fun b q c d hp ht hd => ?_
    rw [if_neg (head_ne_of_ne_null hp hj)]
    exact (h n j v hv).map.run hp ht hd

/-- The items of a list are gathered in reverse. -/
theorem Agrees.items {as : List α} (h : x.Agrees) (n i : Nat) (acc : List α)
    (ha : js.mapM x.accept = .ok as) :
    ItemsMake (fun i items => some ((x.decode.map (· :: items)).under (.item i))) n i acc js
      (as.reverse ++ acc) := by
  induction js generalizing i acc as with
  | nil =>
    rw [List.mapM_nil] at ha
    cases ha
    exact .nil i acc
  | cons j js ih =>
    obtain ⟨a, as', hj, hjs, rfl⟩ := mapM_cons_eq_ok_iff.1 ha
    rw [List.reverse_cons, List.append_assoc]
    exact .cons rfl ((h n j a hj).map.under (.item i)) (ih (i + 1) (a :: acc) hjs)

theorem Agrees.list (h : x.Agrees) : x.list.Agrees := by
  intro n j as ha
  cases j with
  | array js =>
    refine Decoder.Makes.settled (Decoder.makes_onHead fun b q c d hp ht _ => ?_)
    obtain ⟨hb, m, rfl⟩ := hp.array_head
    rw [if_pos hb]
    have hrun := (h.items m 0 [] ha).arrayOf hp ht
    rw [List.append_nil] at hrun
    exact Decoder.map_eq_ok_iff.2 ⟨_, hrun, List.reverse_reverse as⟩
  | null | bool | number | string | object => cases ha

end Shape

theorem accept_map {x : Shape α} {f : α → β} (h : x.accept j = .ok a) :
    (x.map f).accept j = .ok (f a) :=
  congrArg (Except.map f) h

/-! ## Records -/

/-- A member fills its field. -/
theorem acceptMembers_cons {r : Record σ α} {slot : Slot σ} {key : String}
    (hslot : r.slots.find? (fun slot => slot.name == key) = some slot)
    (hset : slot.isSet s = false) (hj : (slot.shape s).accept j = .ok t) (ms : Object) :
    r.acceptMembers s ((key, j) :: ms) = r.acceptMembers t ms := by
  rw [Record.acceptMembers, hslot]
  dsimp only
  rw [hset, if_neg Bool.false_ne_true, hj]
  rfl

/-- A member that does not fit its field. -/
theorem acceptMembers_cons_error {r : Record σ α} {slot : Slot σ} {key : String} {m : Misfit}
    (hslot : r.slots.find? (fun slot => slot.name == key) = some slot)
    (hset : slot.isSet s = false) (hj : (slot.shape s).accept j = .error m) (ms : Object) :
    r.acceptMembers s ((key, j) :: ms) = .error m := by
  rw [Record.acceptMembers, hslot]
  dsimp only
  rw [hset, if_neg Bool.false_ne_true, hj]
  rfl

/-- Members are accepted one after the other. -/
theorem acceptMembers_append (r : Record σ α) (s : σ) (ms ns : Object) :
    r.acceptMembers s (ms ++ ns) = (r.acceptMembers s ms).bind fun t => r.acceptMembers t ns := by
  induction ms generalizing s with
  | nil => rfl
  | cons m ms ih =>
    obtain ⟨key, j⟩ := m
    rw [List.cons_append, Record.acceptMembers, Record.acceptMembers]
    split
    · next slot _ =>
      split
      · rfl
      · cases (slot.shape s).accept j with
        | error m => rfl
        | ok t => exact ih t
    · exact ih s

namespace Record

variable {r : Record σ α}

theorem membersMake (h : ∀ slot ∈ r.slots, ∀ s, (slot.shape s).Agrees) (n : Nat)
    (ht : r.acceptMembers s ms = .ok t) : MembersMake r.member n s ms t := by
  induction ms generalizing s with
  | nil =>
    cases ht
    exact .nil _
  | cons m ms ih =>
    obtain ⟨key, j⟩ := m
    rw [acceptMembers] at ht
    split at ht
    · next slot hslot =>
      split at ht
      · cases ht
      · next hset =>
        obtain ⟨s', hj, hrest⟩ := bind_eq_ok_iff.1 ht
        have hagrees := h slot (List.mem_of_find?_eq_some hslot) s n j s' hj
        refine .cons ?_ (hagrees.under (.key key)) (ih hrest)
        rw [member, hslot]
        dsimp only
        rw [if_neg hset]
    · next hnone =>
      have hskip : (Decoder.skip.map fun _ => s).Makes n j s := (Decoder.makes_skip n j).map
      refine .cons ?_ hskip (ih ht)
      rw [member, hnone]

theorem acceptItems_nil (slots : List (Slot σ)) : acceptItems s slots [] = .ok s := by
  cases slots <;> rfl

/-- Items fill the fields in order, and there are no more items than fields. -/
theorem itemsMake (h : ∀ slot ∈ r.slots, ∀ s, (slot.shape s).Agrees) (n i : Nat)
    (ht : acceptItems s (r.slots.drop i) js = .ok t) (hle : js.length ≤ (r.slots.drop i).length) :
    ItemsMake r.item n i s js t := by
  induction js generalizing i s with
  | nil =>
    cases (acceptItems_nil _).symm.trans ht
    exact .nil i _
  | cons j js ih =>
    have hi : i < r.slots.length := by
      rw [List.length_cons, List.length_drop] at hle
      omega
    rw [List.drop_eq_getElem_cons hi] at ht hle
    rw [acceptItems] at ht
    obtain ⟨s', hj, hrest⟩ := bind_eq_ok_iff.1 ht
    have hagrees := h _ (List.getElem_mem hi) s n j s' hj
    refine .cons ?_ (hagrees.under (.item i)) (ih (i + 1) hrest ?_)
    · rw [item, List.getElem?_eq_getElem hi]
      rfl
    · rw [List.length_cons, List.length_cons] at hle
      omega

/-- **A record reads from text what it accepts as a value**, from objects with any other members in
any order, and from arrays. -/
theorem agrees (h : ∀ slot ∈ r.slots, ∀ s, (slot.shape s).Agrees) : r.shape.Agrees := by
  intro n j a ha
  cases j with
  | object ms =>
    refine Decoder.Makes.settled (Decoder.makes_onHead fun b q c d hp ht _ => ?_)
    obtain ⟨hb, m, rfl⟩ := hp.object_head
    obtain ⟨s, hs, hfit⟩ := bind_eq_ok_iff.1 ha
    have hrun := (membersMake h m hs).objectOf hp ht
    rw [if_pos hb]
    simp only [Decoder.refine, hrun, hfit]
  | array js =>
    refine Decoder.Makes.settled (Decoder.makes_onHead fun b q c d hp ht _ => ?_)
    have hbrace : Octet.openBracket ≠ Octet.openBrace := by decide
    obtain ⟨hb, m, rfl⟩ := hp.array_head
    obtain ⟨s, hs, hrest⟩ := bind_eq_ok_iff.1 ha
    obtain ⟨v, hfit, hcount⟩ := bind_eq_ok_iff.1 hrest
    split at hcount
    · cases hcount
    · next hle =>
      cases hcount
      have hle := Nat.le_of_not_lt hle
      rw [Nat.min_eq_left hle] at hfit
      have hmake := itemsMake h m 0 (by rwa [List.drop_zero]) (by rwa [List.drop_zero])
      rw [hb, if_neg hbrace, if_pos rfl]
      simp only [Decoder.refine, hmake.arrayOf hp ht, hfit]
  | null | bool | number | string => cases ha

end Record

/-! ## Tagged values -/

namespace Tagged

variable {known : List String} {expected tag : String}

theorem makes_tagShape (htag : known.contains tag = true) (n : Nat) :
    (tagShape known).Makes n (.string tag) tag := by
  refine Decoder.Makes.settled (Decoder.makes_onHead fun b q c d hp ht _ => ?_)
  cases hp with
  | string hs =>
    have hrun := quoted_complete hs ht
    obtain ⟨q, bs, hq, -⟩ := hs
    obtain ⟨rfl, -⟩ := List.cons.inj hq
    rw [if_pos rfl]
    simp only [Decoder.refine, hrun, htag, if_true]

/-- Members beside the tag are kept as they are. -/
theorem others_make (hn : n ≤ deepest - 1) (hms : ∀ m ∈ ms, m.1 ≠ key) (o : Option String)
    (acc : Object) {q : Partial (String × Json)} {rest : Object}
    (h : MembersMake (member known) n (o, ms.reverse ++ acc) rest q) :
    MembersMake (member known) n (o, acc) (ms ++ rest) q := by
  induction ms generalizing acc with
  | nil => exact h
  | cons m ms ih =>
    obtain ⟨k, j⟩ := m
    rw [List.forall_mem_cons] at hms
    rw [List.reverse_cons, List.append_assoc] at h
    have hvalue : ((Decoder.value (deepest - 1)).map fun j => (o, (k, j) :: acc)).Makes n j
        (o, (k, j) :: acc) := (Decoder.makes_value hn j).map
    refine .cons ?_ hvalue (ih hms.2 ((k, j) :: acc) h)
    rw [member, if_neg hms.1]

/-- **A tagged object is read as its tag and the other members**, wherever the tag stands. -/
theorem makes_decode {before after : Object} (htag : known.contains tag = true) (hn : n ≤ deepest)
    (hbefore : ∀ m ∈ before, m.1 ≠ key) (hafter : ∀ m ∈ after, m.1 ≠ key) :
    (decode expected known).Makes n (.object (before ++ (key, .string tag) :: after))
      ⟨tag, .object (before ++ after)⟩ := by
  refine Decoder.Makes.settled (Decoder.makes_onHead fun b q c d hp ht _ => ?_)
  obtain ⟨hb, m, rfl⟩ := hp.object_head
  have hm : m ≤ deepest - 1 := Nat.le_sub_one_of_lt hn
  have hmembers : MembersMake (member known) m (none, [])
      (before ++ (key, .string tag) :: after)
      (some tag, after.reverse ++ before.reverse) := by
    refine others_make hm hbefore none [] ?_
    rw [List.append_nil]
    refine .cons (by rw [member, if_pos rfl]; rfl) ((makes_tagShape htag m).map.under (.key key)) ?_
    rw [← List.append_nil after]
    refine others_make hm hafter (some tag) before.reverse ?_
    rw [List.append_nil]
    exact .nil _
  rw [if_pos hb]
  simp only [Decoder.refine, hmembers.objectOf hp ht, Record.need, Except.map,
    List.reverse_append, List.reverse_reverse]

/-- A tag that stands in front of the other members. -/
theorem makes_decode_cons (htag : known.contains tag = true) (hn : n ≤ deepest)
    (hms : ∀ m ∈ ms, m.1 ≠ key) :
    (decode expected known).Makes n (.object ((key, .string tag) :: ms)) ⟨tag, .object ms⟩ :=
  (makes_decode htag hn (List.forall_mem_nil _) hms :)

end Tagged

/-! ## Whole texts -/

/-- A text of the value, with nothing around it, is read as a whole. -/
theorem Decoder.Makes.parse {D : Decoder α} (h : D.Makes n j a) (hp : Written n (.value j) p) :
    D.parse p = .ok a := by
  have ht : (Cursor.start p).Takes p ⟨p.length, []⟩ :=
    ⟨(List.append_nil p).symm, (Nat.zero_add p.length).symm⟩
  rw [Decoder.parse_eq_ok_iff]
  exact ⟨_, h.run hp ht (apart_of_nil rfl), nofun⟩

end IndexFeed.Json
