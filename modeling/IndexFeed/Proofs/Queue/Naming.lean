import Mathlib.Data.List.Basic
import IndexFeed.Proofs.Queue.Name
import IndexFeed.Proofs.Text.Decimal
import IndexFeed.Proofs.Text.Width
import IndexFeed.Queue.Options

/-!
# Names of the queues of a worker

The name of a queue puts the id of the driver, the number of the worker and the direction one behind
the other, and nothing in the id is escaped.  It can be taken apart from the right all the same: the
two tags are equally long, and the number in front of the tag begins behind the last letter w, since
digits are no letters.  So no two workers have a queue in common, whatever their drivers are called.
-/

set_option autoImplicit false

namespace IndexFeed.Queue

/-- Lists are taken apart at the last place where a member stands. -/
theorem append_cons_inj_of_last {α : Type} {xs ys us vs : List α} {a : α} (hu : a ∉ us)
    (hv : a ∉ vs) (h : xs ++ a :: us = ys ++ a :: vs) : xs = ys ∧ us = vs := by
  rcases List.append_eq_append_iff.1 h with ⟨c, rfl, hc⟩ | ⟨c, rfl, hc⟩
  · cases c with
    | nil => exact ⟨(List.append_nil xs).symm, (List.cons.inj hc).2⟩
    | cons b c =>
      rw [(List.cons.inj hc).2] at hu
      exact absurd (List.mem_append_right c List.mem_cons_self) hu
  · cases c with
    | nil => exact ⟨List.append_nil ys, (List.cons.inj hc).2.symm⟩
    | cons b c =>
      rw [(List.cons.inj hc).2] at hv
      exact absurd (List.mem_append_right c List.mem_cons_self) hv

namespace Options

variable {o o' : Options} {d d' : Direction} {n n' : String}

/-! ## What a name consists of -/

theorem toList_plainName (o : Options) (d : Direction) :
    (o.plainName d).toList = (o.driverId.toList ++ ['-']) ++ 'w' :: Decimal.chars o.workerId.toNat ++
      '-' :: d.tag.toList := by
  simp [plainName, Decimal.text]

theorem length_tag (d : Direction) : d.tag.toList.length = 9 := by
  cases d <;> rfl

theorem tag_injective (h : d.tag.toList = d'.tag.toList) : d = d' := by
  revert h
  cases d <;> cases d' <;> decide

/-- A name comes apart into what it has been put together from. -/
theorem plainName_inj (h : (o.plainName d).toList = (o'.plainName d').toList) :
    o.driverId = o'.driverId ∧ o.workerId = o'.workerId ∧ d = d' := by
  have hw : ∀ k, 'w' ∉ Decimal.chars k := fun k hk =>
    absurd (Decimal.isDigit_of_mem_chars hk) (by decide)
  rw [toList_plainName, toList_plainName] at h
  obtain ⟨hfront, htag⟩ := List.append_inj' h (by simp [length_tag])
  obtain ⟨hid, hworker⟩ := append_cons_inj_of_last (hw _) (hw _) hfront
  refine ⟨String.toList_inj.1 (List.append_cancel_right hid), ?_,
    tag_injective (List.cons.inj htag).2⟩
  exact UInt32.toNat_inj.1 (Decimal.chars_injective hworker)

/-- A character that no name may hold comes from the id of the driver. -/
theorem mem_plainName {x : Char} (hx : x = '/' ∨ x = Char.ofNat 0) :
    x ∈ (o.plainName d).toList ↔ x ∈ o.driverId.toList := by
  have hmark : x ≠ '-' ∧ x ≠ 'w' := by rcases hx with rfl | rfl <;> decide
  have hdigits : x ∉ Decimal.chars o.workerId.toNat := fun hmem => by
    have hdigit := Decimal.isDigit_of_mem_chars hmem
    rcases hx with rfl | rfl <;> exact absurd hdigit (by decide)
  have htag : x ∉ d.tag.toList := by rcases hx with rfl | rfl <;> cases d <;> decide
  simp [toList_plainName, hmark, hdigits, htag]

/-- The names of both queues are equally long. -/
theorem length_plainName (o : Options) (d d' : Direction) :
    (Utf8.encode (o.plainName d)).length = (Utf8.encode (o.plainName d')).length := by
  have htags : (Utf8.encodeChars d.tag.toList).length = (Utf8.encodeChars d'.tag.toList).length := by
    cases d <;> cases d' <;> decide +kernel
  simp only [Utf8.encode, toList_plainName, Utf8.encodeChars_append, Utf8.encodeChars_cons,
    List.length_append, htags]

/-! ## Which options give names -/

/-- The options give their queues names. -/
structure Nameable (o : Options) (d : Direction) : Prop where
  nonempty : o.driverId ≠ ""
  noSlash : '/' ∉ o.driverId.toList
  noNul : Char.ofNat 0 ∉ o.driverId.toList
  fits : (Utf8.encode (o.plainName d)).length ≤ longestBareName

theorem bareName_plainName (hne : o.driverId ≠ "") (hslash : '/' ∉ o.driverId.toList) :
    bareName (o.plainName d).toList = (o.plainName d).toList := by
  obtain ⟨c, cs, hcs⟩ := List.exists_cons_of_ne_nil (mt String.toList_eq_nil_iff.1 hne)
  have hc : c ≠ '/' := by
    rintro rfl
    exact hslash (hcs ▸ List.mem_cons_self)
  rw [toList_plainName, hcs]
  unfold bareName
  split
  · next hhead => exact absurd (List.cons.inj hhead).1 hc
  · rfl

theorem isBareName_plainName (hslash : '/' ∉ o.driverId.toList) :
    isBareName (o.plainName d).toList = true ↔
      Char.ofNat 0 ∉ o.driverId.toList ∧
        (Utf8.encode (o.plainName d)).length ≤ longestBareName := by
  have hne : (o.plainName d).toList ≠ [] := by simp [toList_plainName]
  have hslash : '/' ∉ (o.plainName d).toList := mt (mem_plainName (.inl rfl)).1 hslash
  rw [← mem_plainName (d := d) (.inr rfl), isBareName, Utf8.encode]
  simp [hne, hslash, and_comm]

theorem queueName_eq_ok_iff :
    o.queueName d = .ok n ↔ o.Nameable d ∧ n = String.ofList ('/' :: (o.plainName d).toList) := by
  unfold queueName
  split
  · next hrefused =>
    simp only [reduceCtorEq, false_iff, not_and]
    intro hnameable
    simp [hnameable.nonempty, hnameable.noSlash] at hrefused
  · next hallowed =>
    obtain ⟨hne, hslash⟩ : o.driverId ≠ "" ∧ '/' ∉ o.driverId.toList := by simpa using hallowed
    rw [normalize_eq_ok_iff, bareName_plainName hne hslash, isBareName_plainName hslash]
    exact and_congr_left' ⟨fun h => ⟨hne, hslash, h.1, h.2⟩, fun h => ⟨h.noNul, h.fits⟩⟩

/-! ## Names that have been given -/

/-- A name that has been given is in its normal form. -/
theorem normalize_of_queueName (h : o.queueName d = .ok n) : normalize n = .ok n := by
  unfold queueName at h
  split at h
  · cases h
  · exact normalize_of_normalize h

theorem nameable_iff (d d' : Direction) : o.Nameable d ↔ o.Nameable d' := by
  have hlength := o.length_plainName d d'
  exact ⟨fun h => { h with fits := hlength ▸ h.fits }, fun h => { h with fits := hlength ▸ h.fits }⟩

theorem exists_queueName_iff : (∃ n, o.queueName d = .ok n) ↔ o.Nameable d := by
  simp [queueName_eq_ok_iff]

theorem queueName_inj (h : o.queueName d = .ok n) (h' : o'.queueName d' = .ok n) :
    o.driverId = o'.driverId ∧ o.workerId = o'.workerId ∧ d = d' := by
  obtain ⟨-, rfl⟩ := queueName_eq_ok_iff.1 h
  obtain ⟨-, hname⟩ := queueName_eq_ok_iff.1 h'
  exact plainName_inj (List.cons.inj (String.ofList_injective hname)).2

/-- **Names never collide.**  Whatever characters the ids hold: the names of two queues are equal if
and only if the ids of the drivers, the numbers of the workers and the directions are.  Options give
both queues a name or none, and they do if the id of the driver is not empty and holds neither a slash
nor a NUL, and the name has no more than 254 octets without the slash in front of it.  A name that
is given is in its normal form. -/
theorem names_never_collide :
    (∀ (o o' : Options) (d d' : Direction) (n n' : String),
      o.queueName d = .ok n → o'.queueName d' = .ok n' →
        (n = n' ↔ o.driverId = o'.driverId ∧ o.workerId = o'.workerId ∧ d = d')) ∧
    (∀ o : Options,
      ((∃ n, o.queueName .toWorker = .ok n) ↔ ∃ n, o.queueName .toDriver = .ok n) ∧
      ∀ d, (∃ n, o.queueName d = .ok n) ↔
        o.driverId ≠ "" ∧ '/' ∉ o.driverId.toList ∧ Char.ofNat 0 ∉ o.driverId.toList ∧
          (Utf8.encode (o.plainName d)).length ≤ 254) ∧
    ∀ (o : Options) (d : Direction) (n : String), o.queueName d = .ok n →
      n = "/" ++ o.plainName d ∧ normalize n = .ok n := by
  refine ⟨fun o o' d d' n n' h h' => ⟨?_, ?_⟩, fun o => ⟨?_, fun d => ?_⟩, fun o d n h => ⟨?_, ?_⟩⟩
  · rintro rfl
    exact queueName_inj h h'
  · rintro ⟨hdriver, hworker, rfl⟩
    have hsame : o.queueName d = o'.queueName d := by
      simp only [queueName, plainName, hdriver, hworker]
    rw [hsame, h', Except.ok.injEq] at h
    exact h.symm
  · rw [exists_queueName_iff, exists_queueName_iff]
    exact nameable_iff _ _
  · rw [exists_queueName_iff]
    exact ⟨fun h => ⟨h.nonempty, h.noSlash, h.noNul, h.fits⟩,
      fun ⟨hne, hslash, hnul, hfits⟩ => ⟨hne, hslash, hnul, hfits⟩⟩
  · rw [(queueName_eq_ok_iff.1 h).2, ← String.toList_inj]
    simp
  · exact normalize_of_queueName h

/-- Ids that hold what is put behind other ids. -/
theorem names_apart_of_similar_ids :
    let o : Options := { driverId := "a-w1", workerId := 1 }
    let o' : Options := { driverId := "a", workerId := 11 }
    ∃ n n', o.queueName .toWorker = .ok n ∧ o'.queueName .toWorker = .ok n' ∧ n ≠ n' ∧
      n = "/a-w1-w1-to-worker" ∧ normalize n = .ok n := by
  intro o o'
  obtain ⟨hcollide, hnames, hnormal⟩ := names_never_collide
  obtain ⟨n, hn⟩ := ((hnames o).2 .toWorker).2 (by decide +kernel)
  obtain ⟨n', hn'⟩ := ((hnames o').2 .toWorker).2 (by decide +kernel)
  obtain ⟨hname, hnormalized⟩ := hnormal o .toWorker n hn
  refine ⟨n, n', hn, hn', fun hsame => ?_, hname.trans (by decide +kernel), hnormalized⟩
  have hid := ((hcollide o o' _ _ n n' hn hn').1 hsame).1
  exact absurd hid (by decide)

end Options

end IndexFeed.Queue
