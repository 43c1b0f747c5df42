import IndexFeed.Json.Value

/-!
# What reading depends on

A reader sees the octets up to the place where it stops, and perhaps the one behind.  Whatever stands
further on makes no difference: on a text that agrees with the one at hand as far as the reader has seen,
it comes to the same.

`reachOf k o` is how far a text was seen when reading came to `o`, where a value may cost a look at the
`k` octets behind it.  `LocalAt k F c` says that `F` depends at `c` on nothing beyond that.  It has one
rule for each way in which readers are put together, so that the readers themselves need no induction
over texts.
-/

set_option autoImplicit false

namespace IndexFeed.Json

/-! ## Texts that agree -/

namespace Cursor

/-- The cursors stand at one place of texts that agree in their first `m` octets, as far as these are
still to come. -/
def Agrees (m : Nat) (c c' : Cursor) : Prop :=
  c'.index = c.index ∧ c'.rest.take (m - c.index) = c.rest.take (m - c.index)

variable {m n : Nat} {c c' : Cursor}

theorem Agrees.advance (h : c.Agrees m c') (n : Nat) : (c.advance n).Agrees m (c'.advance n) := by
  refine ⟨congrArg (· + n) h.1, ?_⟩
  rw [Cursor.advance, Cursor.advance, Nat.sub_add_eq, ← List.drop_take, ← List.drop_take, h.2]

/-- A text that has been seen beyond its end is the whole text. -/
theorem Agrees.rest_eq (h : c.Agrees m c') (hlt : c.index + c.rest.length < m) :
    c'.rest = c.rest := by
  have htake := h.2
  rw [List.take_of_length_le (by omega : c.rest.length ≤ m - c.index)] at htake
  have hlength := congrArg List.length htake
  rw [List.length_take] at hlength
  rwa [List.take_of_length_le (by omega)] at htake

/-- Octets that have been seen are the next ones in both texts. -/
theorem Agrees.append (h : c.Agrees m c') {p r : Bytes} (hr : c.rest = p ++ r)
    (hle : c.index + p.length ≤ m) :
    ∃ r', c'.rest = p ++ r' ∧ Agrees m ⟨c.index + p.length, r⟩ ⟨c'.index + p.length, r'⟩ := by
  have htake : c'.rest.take p.length = p := by
    have hboth := congrArg (List.take p.length) h.2
    rwa [List.take_take, List.take_take, Nat.min_eq_left (by omega), hr,
      List.take_left] at hboth
  refine ⟨c'.rest.drop p.length, ?_, ?_⟩
  · have happend := List.take_append_drop p.length c'.rest
    rw [htake] at happend
    exact happend.symm
  · have hadvance := h.advance p.length
    rwa [Cursor.advance, Cursor.advance, hr, List.drop_left] at hadvance

theorem Agrees.cons (h : c.Agrees m c') {b : UInt8} {r : Bytes} (hr : c.rest = b :: r)
    (hlt : c.index < m) :
    ∃ r', c'.rest = b :: r' ∧ Agrees m ⟨c.index + 1, r⟩ ⟨c'.index + 1, r'⟩ :=
  h.append (p := [b]) hr hlt

theorem Agrees.nil (h : c.Agrees m c') (hr : c.rest = []) (hlt : c.index < m) : c'.rest = [] := by
  rw [h.rest_eq (by rwa [hr]), hr]

theorem Agrees.head? (h : c.Agrees m c') (hlt : c.index < m) :
    c'.rest.head? = c.rest.head? := by
  cases hr : c.rest with
  | nil => rw [h.nil hr hlt]
  | cons b r =>
    obtain ⟨r', hr', -⟩ := h.cons hr hlt
    rw [hr']
    rfl

/-- The next octets that have a property, as far as they have been seen. -/
theorem Agrees.take_takeWhile (h : c.Agrees m c') (p : UInt8 → Bool) :
    (c'.rest.takeWhile p).take (m - c.index) = (c.rest.takeWhile p).take (m - c.index) := by
  rw [List.take_takeWhile, List.take_takeWhile, h.2]

/-- The next octets that have a property, and one behind them that has been seen. -/
theorem Agrees.takeWhile_eq (h : c.Agrees m c') (p : UInt8 → Bool)
    (hlt : c.index + (c.rest.takeWhile p).length < m) :
    c'.rest.takeWhile p = c.rest.takeWhile p := by
  have htake := h.take_takeWhile p
  rw [List.take_of_length_le (by omega : (c.rest.takeWhile p).length ≤ m - c.index)] at htake
  have hlength := congrArg List.length htake
  rw [List.length_take] at hlength
  rwa [List.take_of_length_le (by omega)] at htake

theorem Agrees.skipBlanks (h : c.Agrees m c') (hlt : c.skipBlanks.index < m) :
    c.skipBlanks.Agrees m c'.skipBlanks := by
  rw [skipBlanks_eq_advance, skipBlanks_eq_advance, h.takeWhile_eq Octet.isBlank hlt]
  exact h.advance _

end Cursor

/-! ## What has been seen -/

namespace Fault

/-- How far a text was seen when the fault was raised: up to the place where reading stopped, and one
further if the next octet was looked at or asked for. -/
def reach (f : Fault) : Nat :=
  f.stop.index + if f.looked || f.cause.category == .early then 1 else 0

/-- What is shown of a place lies in what has been seen. -/
def Placed (f : Fault) : Prop := ∀ s, f.site = some s → s.count .stream ≤ f.reach

/-- The faults cannot be told apart by what has been seen of the texts. -/
structure Alike (m : Nat) (f g : Fault) : Prop where
  cause : g.cause = f.cause
  path : g.path = f.path
  looked : g.looked = f.looked
  stop : f.stop.Agrees m g.stop
  sites : g.site.map (fun s => (s.count .stream, s.blame)) =
    f.site.map fun s => (s.count .stream, s.blame)

variable {m : Nat} {f g : Fault}

/-- A fault has taken all that it has seen, but perhaps for one octet. -/
theorem reach_le_taken (f : Fault) : f.reach ≤ f.taken .stream + 1 := by
  rw [reach, taken]
  split
  · split <;> omega
  · split <;> omega

theorem Alike.taken (h : f.Alike m g) (hm : f.reach ≤ m) : g.taken .stream = f.taken .stream := by
  rw [Fault.taken, Fault.taken, h.looked, h.stop.1]
  cases hlooked : f.looked with
  | false => rfl
  | true =>
    have hseen : f.stop.index < m := by
      rw [reach, hlooked] at hm
      exact hm
    have hempty : g.stop.rest.isEmpty = f.stop.rest.isEmpty := by
      cases hr : f.stop.rest with
      | nil => rw [h.stop.nil hr hseen]
      | cons b r =>
        obtain ⟨r', hr', -⟩ := h.stop.cons hr hseen
        rw [hr']
        rfl
    rw [hempty]

/-- What is reported of a fault is in what has been seen. -/
theorem Alike.report {t u : Bytes} (h : f.Alike m g) (hm : f.reach ≤ m) (hplaced : f.Placed)
    (htext : u.take m = t.take m) : g.report .stream u = f.report .stream t := by
  have hposition : ∀ s s' : Site, s.count .stream ≤ m →
      (s'.count .stream, s'.blame) = (s.count .stream, s.blame) →
      s'.position .stream u = s.position .stream t := by
    intro s s' hs hmark
    obtain ⟨hcount, hblame⟩ := Prod.mk.inj hmark
    have htake : u.take (s.count .stream) = t.take (s.count .stream) := by
      have hboth := congrArg (List.take (s.count .stream)) htext
      rwa [List.take_take, List.take_take, Nat.min_eq_left hs] at hboth
    rw [Site.position, Site.position, hcount, hblame, htake]
  have hsites := h.sites
  rw [Fault.report, Fault.report, h.cause, h.path]
  cases hs : f.site with
  | none =>
    rw [hs, Option.map_none, Option.map_eq_none_iff] at hsites
    rw [hsites]
    rfl
  | some s =>
    rw [hs, Option.map_some, Option.map_eq_some_iff] at hsites
    obtain ⟨s', hs', hmark⟩ := hsites
    rw [hs', Option.map_some, Option.map_some,
      hposition s s' (Nat.le_trans (hplaced s hs) hm) hmark]

end Fault

section Rules

variable {α β : Type} {j k m : Nat} {c c' d : Cursor} {f g : Fault}

/-- Goes on behind a value. -/
def onward (o : Outcome α) (G : α → Cursor → Outcome β) : Outcome β :=
  match o with
  | .ok (a, d) => G a d
  | .error f => .error f

/-- Hands a fault on, changed by what is around it. -/
def outward {α : Type} (g : Fault → Fault) : Outcome α → Outcome α
  | .ok r => .ok r
  | .error f => .error (g f)

/-- How far a text was seen when reading came to an outcome, where a value costs a look at the `k`
octets behind it. -/
def reachOf (k : Nat) : Outcome α → Nat
  | .ok (_, d) => d.index + k
  | .error f => f.reach

/-- The outcomes cannot be told apart by what has been seen of the texts. -/
def Alike (m : Nat) : Outcome α → Outcome α → Prop
  | .ok (a, d), .ok (a', d') => a' = a ∧ d.Agrees m d'
  | .error f, .error g => f.Alike m g
  | _, _ => False

theorem Alike.ok {o : Outcome α} {a : α} (h : Alike m (.ok (a, d)) o) :
    ∃ d', o = .ok (a, d') ∧ d.Agrees m d' := by
  match o with
  | .ok (a', d') =>
    obtain ⟨rfl, hd⟩ := h
    exact ⟨d', rfl, hd⟩
  | .error g => exact h.elim

theorem Alike.error {o : Outcome α} (h : Alike m (.error f) o) :
    ∃ g, o = .error g ∧ f.Alike m g := by
  match o with
  | .ok r => exact h.elim
  | .error g => exact ⟨g, rfl, h⟩

theorem reachOf_mono (hjk : j ≤ k) (o : Outcome α) : reachOf j o ≤ reachOf k o := by
  match o with
  | .ok (_, d) => exact Nat.add_le_add_left hjk _
  | .error f => exact Nat.le_refl _

/-- What a reader comes to at a place depends only on what it has seen, which it has seen from that
place on. -/
structure LocalAt (k : Nat) (F : Cursor → Outcome α) (c : Cursor) : Prop where
  reach : c.index + k ≤ reachOf k (F c)
  placed : ∀ f, F c = .error f → f.Placed
  alike : ∀ {m : Nat} {c' : Cursor}, c.Agrees m c' → reachOf k (F c) ≤ m → Alike m (F c) (F c')

/-- The reader depends on nothing that it has not seen, wherever it starts. -/
def Local (k : Nat) (F : Cursor → Outcome α) : Prop := ∀ c, LocalAt k F c

theorem Local.congr {F H : Cursor → Outcome α} (h : Local k F) (hH : ∀ c, H c = F c) :
    Local k H :=
  (funext hH : H = F) ▸ h

/-! ## Rules -/

namespace LocalAt

theorem pure {a : α} : LocalAt k (fun c => .ok (a, c)) c where
  reach := Nat.le_refl _
  placed _ h := by cases h
  alike h _ := ⟨rfl, h⟩

/-- The octet ahead has been looked at. -/
theorem ahead {cause : Cause} (hk : k ≤ 1) :
    LocalAt k (fun c => (.error (c.ahead cause) : Outcome α)) c where
  reach := Nat.add_le_add_left hk _
  placed f h := by
    cases h
    intro s hs
    cases hs
    exact Nat.le_refl _
  alike h _ := ⟨rfl, rfl, rfl, h, by simp [Cursor.ahead, Site.count, h.1]⟩

theorem besideLook {cause : Cause} (hk : k ≤ 1) :
    LocalAt k (fun c => (.error (c.besideLook cause) : Outcome α)) c where
  reach := Nat.add_le_add_left hk _
  placed f h := by
    cases h
    intro s hs
    cases hs
    exact Nat.le_refl _
  alike h _ := ⟨rfl, rfl, rfl, h, by simp [Cursor.besideLook, Site.count, h.1]⟩

/-- Only an early end needs a look at the next octet. -/
theorem behindBy {cause : Cause} (back : Nat) (hk : k ≤ if cause.category = .early then 1 else 0) :
    LocalAt k (fun c => (.error ⟨cause, some ⟨c, .behind back⟩, [], c, false⟩ : Outcome α)) c where
  reach := by
    refine Nat.add_le_add_left (Nat.le_trans hk ?_) _
    simp
  placed f h := by
    cases h
    intro s hs
    cases hs
    exact Nat.le_add_right _ _
  alike h _ := ⟨rfl, rfl, rfl, h, by simp [Site.count, h.1]⟩

theorem behind {cause : Cause} (hk : k ≤ if cause.category = .early then 1 else 0) :
    LocalAt k (fun c => (.error (c.behind cause) : Outcome α)) c := behindBy 0 hk

variable {F H N : Cursor → Outcome α} {G : UInt8 → Cursor → Outcome α}

/-- A reader that goes on as another one from a place further on, wherever enough of the text is the
same. -/
theorem of_step {K : Cursor → Outcome α} (hK : LocalAt j K d) (hplace : c.index + k ≤ d.index + j)
    (hjk : reachOf j (K d) ≤ reachOf k (K d)) (hc : F c = K d)
    (hstep : ∀ m c', c.Agrees m c' → reachOf k (K d) ≤ m → ∃ d', F c' = K d' ∧ d.Agrees m d') :
    LocalAt k F c where
  reach := by
    rw [hc]
    exact Nat.le_trans hplace (Nat.le_trans hK.reach hjk)
  placed f hf := hK.placed f (hc.symm.trans hf)
  alike h hm := by
    rw [hc] at hm ⊢
    obtain ⟨d', hd', hd⟩ := hstep _ _ h hm
    rw [hd']
    exact hK.alike hd (Nat.le_trans hjk hm)

theorem ite {p : Prop} [Decidable p] (hF : p → LocalAt k F c) (hH : ¬p → LocalAt k H c) :
    LocalAt k (fun c => if p then F c else H c) c := by
  by_cases hp : p
  · simp only [if_pos hp]
    exact hF hp
  · simp only [if_neg hp]
    exact hH hp

/-- One reader behind another. -/
theorem bind {F : Cursor → Outcome α} {G : α → Cursor → Outcome β} {H : Cursor → Outcome β}
    (hF : LocalAt k F c) (hG : ∀ a d, F c = .ok (a, d) → LocalAt k (G a) d)
    (hH : ∀ c, H c = onward (F c) G) : LocalAt k H c := by
  cases hrun : F c with
  | error f =>
    have hc : H c = .error f := by rw [hH, hrun, onward]
    have hreach := hF.reach
    rw [hrun] at hreach
    refine ⟨by rw [hc]; exact hreach, ?_, ?_⟩
    · intro f' hf'
      rw [hc] at hf'
      cases hf'
      exact hF.placed f hrun
    · intro m c' h hm
      rw [hc] at hm ⊢
      have halike := hF.alike h (by rw [hrun]; exact hm)
      rw [hrun] at halike
      obtain ⟨g, hg, hfg⟩ := halike.error
      rw [hH, hg, onward]
      exact hfg
  | ok r =>
    obtain ⟨a, d⟩ := r
    have hc : H c = G a d := by rw [hH, hrun, onward]
    refine of_step (hG a d hrun) ?_ (Nat.le_refl _) hc ?_
    · have hfirst := hF.reach
      rwa [hrun] at hfirst
    · intro m c' h hm
      have halike := hF.alike h (by rw [hrun]; exact Nat.le_trans (hG a d hrun).reach hm)
      rw [hrun] at halike
      obtain ⟨d', hd', hd⟩ := halike.ok
      exact ⟨d', by rw [hH, hd', onward], hd⟩

theorem map {g : α → β} {H : Cursor → Outcome β} (h : LocalAt k F c)
    (hH : ∀ c, H c = onward (F c) fun a d => .ok (g a, d)) : LocalAt k H c :=
  h.bind (fun _ _ _ => .pure) hH

/-- Faults that are changed on the way out, which may show more of the text. -/
theorem out {g : Fault → Fault} (h : LocalAt k F c)
    (hreach : ∀ f : Fault, f.reach ≤ (g f).reach) (hplaced : ∀ f : Fault, f.Placed → (g f).Placed)
    (halike : ∀ m f f', (g f).reach ≤ m → f.Alike m f' → (g f).Alike m (g f')) :
    LocalAt k (fun c => outward g (F c)) c := by
  have hfirst := h.reach
  cases hrun : F c with
  | error f =>
    have hc : outward g (F c) = .error (g f) := by rw [hrun, outward]
    rw [hrun] at hfirst
    refine ⟨?_, ?_, ?_⟩
    · rw [hc]
      exact Nat.le_trans hfirst (hreach f)
    · intro f' hf'
      rw [hc] at hf'
      cases hf'
      exact hplaced f (h.placed f hrun)
    · intro m c' hagree hm
      rw [hc] at hm ⊢
      have hrun' := h.alike hagree (by rw [hrun]; exact Nat.le_trans (hreach f) hm)
      rw [hrun] at hrun'
      obtain ⟨f', hf', hff'⟩ := hrun'.error
      rw [hf', outward]
      exact halike m f f' hm hff'
  | ok r =>
    have hc : outward g (F c) = .ok r := by rw [hrun, outward]
    rw [hrun] at hfirst
    refine ⟨by rw [hc]; exact hfirst, ?_, ?_⟩
    · intro f hf
      rw [hc] at hf
      cases hf
    · intro m c' hagree hm
      rw [hc] at hm ⊢
      have hrun' := h.alike hagree (by rw [hrun]; exact hm)
      rw [hrun] at hrun'
      obtain ⟨d', hd', hd⟩ := hrun'.ok
      rw [hd', outward]
      exact ⟨rfl, hd⟩

/-- Going on by some octets, whatever they are. -/
theorem advance {n : Nat} (h : LocalAt j F (c.advance n)) (hj : j ≤ k) (hk : k ≤ j + n) :
    LocalAt k (fun c => F (c.advance n)) c := by
  refine h.of_step ?_ (reachOf_mono hj _) rfl fun m c' hagree _ => ⟨_, rfl, hagree.advance n⟩
  show c.index + k ≤ c.index + n + j
  omega

/-- Looking at the next octet without taking it. -/
theorem peek (hnil : c.rest = [] → LocalAt 1 N c) (hcons : ∀ b r, c.rest = b :: r → LocalAt 1 (G b) c)
    (hF : ∀ c, F c = match c.rest with | [] => N c | b :: _ => G b c) : LocalAt 1 F c := by
  cases hr : c.rest with
  | nil =>
    have hN := hnil hr
    refine hN.of_step (Nat.le_refl _) (Nat.le_refl _) (by rw [hF, hr]) fun m c' hagree hm => ?_
    have hr' := hagree.nil hr (Nat.le_trans hN.reach hm)
    exact ⟨c', by rw [hF, hr'], hagree⟩
  | cons b r =>
    have hG := hcons b r hr
    refine hG.of_step (Nat.le_refl _) (Nat.le_refl _) (by rw [hF, hr]) fun m c' hagree hm => ?_
    obtain ⟨r', hr', -⟩ := hagree.cons hr (Nat.le_trans hG.reach hm)
    exact ⟨c', by rw [hF, hr'], hagree⟩

/-- Taking the next octet. -/
theorem take {E : Cursor → Fault} (hj : j ≤ k) (hk : k ≤ 1)
    (hnil : c.rest = [] → LocalAt 1 (fun c => (.error (E c) : Outcome α)) c)
    (hcons : ∀ b r, c.rest = b :: r → LocalAt j (G b) ⟨c.index + 1, r⟩)
    (hF : ∀ c, F c = match c.rest with | [] => .error (E c) | b :: r => G b ⟨c.index + 1, r⟩) :
    LocalAt k F c := by
  cases hr : c.rest with
  | nil =>
    have hE := hnil hr
    refine hE.of_step (Nat.add_le_add_left hk _) (Nat.le_refl _) (by rw [hF, hr])
      fun m c' hagree hm => ?_
    have hr' := hagree.nil hr (Nat.le_trans hE.reach hm)
    exact ⟨c', by rw [hF, hr'], hagree⟩
  | cons b r =>
    have hG := hcons b r hr
    refine hG.of_step (by dsimp only; omega) (reachOf_mono hj _) (by rw [hF, hr])
      fun m c' hagree hm => ?_
    have hseen := Nat.le_trans hG.reach (Nat.le_trans (reachOf_mono hj _) hm)
    obtain ⟨r', hr', hnext⟩ := hagree.cons hr (Nat.le_trans (Nat.le_add_right _ j) hseen)
    exact ⟨_, by rw [hF, hr'], hnext⟩

/-- Taking octets as long as they have a property; the first one that has not has been looked at. -/
theorem takeWhile {p : UInt8 → Bool} {G : Bytes → Cursor → Outcome α}
    (h : LocalAt 1 (G (c.rest.takeWhile p)) (c.advance (c.rest.takeWhile p).length))
    (hF : ∀ c, F c = G (c.rest.takeWhile p) (c.advance (c.rest.takeWhile p).length)) :
    LocalAt 1 F c := by
  refine h.of_step (Nat.add_le_add_right (Nat.le_add_right _ _) 1) (Nat.le_refl _) (hF c)
    fun m c' hagree hm => ?_
  have hsame := hagree.takeWhile_eq p (Nat.le_trans h.reach hm)
  exact ⟨_, by rw [hF, hsame], hagree.advance _⟩

theorem blanks (h : LocalAt 1 F c.skipBlanks) : LocalAt 1 (fun c => F c.skipBlanks) c := by
  refine takeWhile (p := Octet.isBlank) (G := fun _ => F) ?_ ?_
  · rwa [← Cursor.skipBlanks_eq_advance]
  · intro c
    rw [Cursor.skipBlanks_eq_advance]

end LocalAt

end Rules

end IndexFeed.Json
