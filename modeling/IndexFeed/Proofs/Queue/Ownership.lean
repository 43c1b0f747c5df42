import IndexFeed.Proofs.Queue.Session

/-!
# Who owns a name

A handle that has come with a new queue is meant to own the name of the queue until it is dropped.
Whether it does depends on the others: a handle knows its name and not which queue is bound to it,
so whoever unlinks the name while the handle is open lets a stranger take it.

As long as nobody does so, an open creator has its name (`Holds`), and a handle that is dropped
takes no name but its own.  If besides no program loses a handle, each name has such an owner
(`Held`), and exactly one.
-/

set_option autoImplicit false

namespace IndexFeed.Queue.Session

variable {x y : Session} {s : Store} {k j : Handle} {c : Capacity} {q : QueueId} {n : String}
  {call : Call}

/-! ## Owners have their names -/

/-- The name of each open handle that has come with a queue leads to this queue. -/
def Holds (x : Session) : Prop := ∀ k ∈ x.creators, x.store.find? k.name = some k.queue

theorem Holds.create {name : String} {kernel : Kernel} {es : List Event} (h : Holds x)
    (hs : x.store.create name c kernel = (.ok k, s, es)) : Holds (x.add s k c) := by
  obtain ⟨hfree, hfind⟩ := Store.find?_create hs
  intro j hj
  rw [creators_add (Store.create_lifecycle hs), List.mem_cons] at hj
  refine (hfind j.name).trans ?_
  rcases hj with rfl | hj
  · rw [if_pos rfl]
  · have hne : j.name ≠ k.name := fun hname => by
      rw [← hname, h j hj] at hfree
      cases hfree
    rw [if_neg hne, h j hj]

/-- A creator that is dropped takes its own name, which no other open handle has. -/
theorem Holds.drop (hinv : Inv x) (h : Holds x) (hk : k ∈ x.handles) :
    Holds { x.detach k with store := (x.store.drop k).1 } := by
  intro j hj
  obtain ⟨hne, hj⟩ := hinv.mem_creators_detach.1 hj
  dsimp only
  rw [Store.drop_eq]
  cases hlifecycle : k.lifecycle with
  | openOnly => exact h j hj
  | createOnly =>
    have hk : k ∈ x.creators := mem_creators.2 ⟨hk, hlifecycle⟩
    have hname : j.name ≠ k.name := fun hname => by
      have hqueue := h j hj
      rw [hname, h k hk, Option.some.injEq] at hqueue
      exact hne (hinv.eq_of_queue_eq hj hk hqueue.symm)
    dsimp only
    rw [Store.find?_removeName, if_neg hname, h j hj]

/-- What leaves the names alone and brings no creators leaves the owners their names. -/
theorem Holds.of_names (h : Holds x) (hnames : y.store.names = x.store.names)
    (hcreators : ∀ k ∈ y.creators, k ∈ x.creators) : Holds y := fun k hk => by
  rw [Store.find?, hnames]
  exact h k (hcreators k hk)

theorem Holds.effect (hinv : Inv x) (h : Holds x) (hcall : Orderly x call)
    (he : Effect call x y) : Holds y := by
  cases he with
  | create hcreate => exact h.create hcreate
  | openNamed hopen =>
    exact h.of_names rfl fun k hk => by
      rwa [creators_attach (Store.openNamed_lifecycle hopen)] at hk
  | abandon | put | take => exact h.of_names rfl fun _ hk => hk
  | drop hk => exact h.drop hinv hk
  | forget => exact h.of_names rfl fun k hk => (hinv.mem_creators_detach.1 hk).2
  | unbind hn =>
    intro k hk
    rw [Store.find?_removeName, if_neg (hcall _ hn k hk), h k hk]

theorem Holds.step (hinv : Inv x) (h : Holds x) (hcall : Orderly x call) (hs : Step call x y) :
    Holds y := by
  cases call with
  | unlink name =>
    cases hs with
    | unlink hunlink =>
      rcases Store.unlink_cases hunlink with rfl | ⟨n, hn, rfl⟩
      · exact h
      · exact h.effect hinv hcall (.unbind hn)
  | create | openNamed | createPair | attachPair | send | receive | drop | forget =>
    refine (hs.preserves (P := fun z => Inv z ∧ Holds z) (fun z w hz he => ?_) ⟨hinv, h⟩).2
    refine ⟨hz.1.effect he, hz.2.effect hz.1 ?_ he⟩
    exact trivial

theorem Reachable.holds (h : Reachable Orderly x) : Holds x := by
  induction h with
  | refl => exact fun _ hk => nomatch hk
  | tail hreach hcall hstep ih => exact ih.step (Reachable.inv hreach) hcall hstep

/-! ## Dropping a handle -/

/-- **A handle that is dropped takes no queue but its own.** As long as nobody unlinks a name under
which an open handle has created its queue: dropping a handle unbinds at most a name that led to the
queue which this handle has created; and a name that leads to a queue which another handle has
created goes on to lead there, to the same messages, and can be opened. -/
theorem Reachable.drop_spares_others (h : Reachable Orderly x) (hk : k ∈ x.handles) :
    (∀ n, (x.store.drop k).1.find? n ≠ x.store.find? n →
      (∃ c, .created k c ∈ x.log) ∧ x.store.find? n = some k.queue ∧
        (x.store.drop k).1.find? n = none) ∧
    ∀ j c n, .created j c ∈ x.log → x.store.find? n = some j.queue → j ≠ k →
      (x.store.drop k).1.find? n = some j.queue ∧
      (x.store.drop k).1.pending j.queue = x.store.pending j.queue ∧
      ∀ name, normalize name = .ok n →
        ∃ o es, (x.store.drop k).1.openNamed name = (.ok o, es) ∧ o.queue = j.queue := by
  have hinv := h.inv
  have hdropped := hinv.effect (.drop hk)
  have hopens : ∀ n q, (x.store.drop k).1.find? n = some q → ∀ name, normalize name = .ok n →
      ∃ o es, (x.store.drop k).1.openNamed name = (.ok o, es) ∧ o.queue = q :=
    fun n q hn name hname => hdropped.opens hname hn
  have hdrop := Store.drop_eq x.store k
  cases hlifecycle : k.lifecycle with
  | openOnly =>
    simp only [hlifecycle] at hdrop
    rw [hdrop] at hopens ⊢
    exact ⟨fun n hn => absurd rfl hn, fun j c n _ hn _ => ⟨hn, rfl, hopens n _ hn⟩⟩
  | createOnly =>
    simp only [hlifecycle] at hdrop
    rw [hdrop] at hopens ⊢
    have hk := mem_creators.2 ⟨hk, hlifecycle⟩
    obtain ⟨c, hc⟩ := hinv.created_of_mem hk
    refine ⟨fun n hn => ?_, fun j c' n hj hn hne => ?_⟩
    · rw [Store.find?_removeName] at hn ⊢
      split at hn
      · next hname =>
        subst hname
        rw [if_pos rfl]
        exact ⟨⟨c, hc⟩, h.holds k hk, rfl⟩
      · exact absurd rfl hn
    · -- the name of the dropped handle leads to its own queue
      have hname : n ≠ k.name := by
        rintro rfl
        rw [h.holds k hk, Option.some.injEq] at hn
        exact hne (hinv.unique j c' k c hj hc hn.symm).1
      have hstays : (x.store.removeName k.name).find? n = some j.queue := by
        rw [Store.find?_removeName, if_neg hname, hn]
      exact ⟨hstays, rfl, hopens n _ hstays⟩

/-- Whoever has opened a queue drops the handle, and the queue stays where it is. -/
theorem drop_spares_others_of_shared :
    (shared.store.drop opener).1.find? "/q" = some 0 ∧
      (shared.store.drop opener).1.pending 0 = [[0x31]] ∧
      ∃ o es, (shared.store.drop opener).1.openNamed "q" = (.ok o, es) ∧ o.queue = 0 := by
  obtain ⟨-, hspares⟩ := Reachable.drop_spares_others (k := opener)
    (reachable_shared.mono fun _ _ => orderly_of_regular) (by decide +kernel)
  obtain ⟨hfind, hpending, hopens⟩ :=
    hspares (owner 0) ⟨2, 4⟩ "/q" (by decide +kernel) (by decide +kernel) (by decide +kernel)
  exact ⟨hfind, hpending, hopens "q" (by decide +kernel)⟩

/-- The name of a queue can be taken from somebody else: a handle that is dropped after its name has
been unlinked removes the name of the queue that has been created under it since. -/
theorem drop_removes_stranger :
    Reachable Anything handedOn ∧ owner 0 ∈ handedOn.handles ∧
      .created (owner 1) ⟨2, 4⟩ ∈ handedOn.log ∧ owner 1 ∈ handedOn.handles ∧ owner 1 ≠ owner 0 ∧
      handedOn.store.find? "/q" = some (owner 1).queue ∧
      (handedOn.store.drop (owner 0)).1.find? "/q" = none :=
  ⟨reachable_handedOn, by decide, by decide, by decide, by decide, by decide, by decide⟩

/-! ## Names have their owners -/

/-- Each name leads to a queue that an open handle has created under it. -/
def Held (x : Session) : Prop :=
  ∀ n q, x.store.find? n = some q → ∃ k ∈ x.creators, k.name = n ∧ k.queue = q

theorem Held.create {name : String} {kernel : Kernel} {es : List Event} (h : Held x)
    (hs : x.store.create name c kernel = (.ok k, s, es)) : Held (x.add s k c) := by
  intro n q hn
  rw [creators_add (Store.create_lifecycle hs)]
  have hn := ((Store.find?_create hs).2 n).symm.trans hn
  split at hn
  · next hname =>
    cases hn
    exact ⟨k, List.mem_cons_self, hname.symm, rfl⟩
  · obtain ⟨j, hj, hbound⟩ := h n q hn
    exact ⟨j, List.mem_cons_of_mem _ hj, hbound⟩

/-- With the handle that is dropped goes its name, so none is left without an owner. -/
theorem Held.drop (hinv : Inv x) (h : Held x) :
    Held { x.detach k with store := (x.store.drop k).1 } := by
  intro n q hn
  dsimp only at hn
  rw [Store.drop_eq] at hn
  have hkeeps : x.store.find? n = some q → (k.lifecycle = .createOnly → n ≠ k.name) →
      ∃ j ∈ (x.detach k).creators, j.name = n ∧ j.queue = q := fun hn hname => by
    obtain ⟨j, hj, hjn, hjq⟩ := h n q hn
    have hne : j ≠ k := fun hjk => hname (hjk ▸ (mem_creators.1 hj).2) (hjn.symm.trans (hjk ▸ rfl))
    exact ⟨j, hinv.mem_creators_detach.2 ⟨hne, hj⟩, hjn, hjq⟩
  cases hlifecycle : k.lifecycle with
  | openOnly =>
    rw [hlifecycle] at hn
    exact hkeeps hn fun hcreated => by rw [hlifecycle] at hcreated; cases hcreated
  | createOnly =>
    rw [hlifecycle] at hn
    dsimp only at hn
    rw [Store.find?_removeName] at hn
    split at hn
    · cases hn
    · next hname => exact hkeeps hn fun _ => hname

theorem Held.of_names (h : Held x) (hnames : y.store.names = x.store.names)
    (hcreators : ∀ k ∈ x.creators, k ∈ y.creators) : Held y := fun n q hn => by
  rw [Store.find?, hnames] at hn
  obtain ⟨k, hk, hbound⟩ := h n q hn
  exact ⟨k, hcreators k hk, hbound⟩

theorem Held.effect (hinv : Inv x) (h : Held x) (hcall : Regular x call)
    (he : Effect call x y) : Held y := by
  cases he with
  | create hcreate => exact h.create hcreate
  | openNamed hopen =>
    exact h.of_names rfl fun k hk => by
      rwa [creators_attach (Store.openNamed_lifecycle hopen)]
  | abandon | put | take => exact h.of_names rfl fun _ hk => hk
  | drop => exact h.drop hinv
  | forget | unbind => exact hcall.elim

theorem Held.step (hinv : Inv x) (h : Held x) (hcall : Regular x call) (hs : Step call x y) :
    Held y :=
  (hs.preserves (P := fun z => Inv z ∧ Held z)
    (fun _ _ hz he => ⟨hz.1.effect he, hz.2.effect hz.1 hcall he⟩) ⟨hinv, h⟩).2

theorem Reachable.held (h : Reachable Regular x) : Held x := by
  induction h with
  | refl => exact fun _ _ hn => nomatch hn
  | tail hreach hcall hstep ih => exact ih.step (Reachable.inv hreach) hcall hstep

/-- Where names are held and owners hold theirs, a name is bound if and only if it has an owner. -/
theorem Held.bound_iff (h : Held x) (hholds : Holds x) :
    (∃ q, x.store.find? n = some q) ↔ ∃ k ∈ x.creators, k.name = n := by
  constructor
  · rintro ⟨q, hq⟩
    obtain ⟨k, hk, hname, -⟩ := h n q hq
    exact ⟨k, hk, hname⟩
  · rintro ⟨k, hk, rfl⟩
    exact ⟨k.queue, hholds k hk⟩

/-- No two owners have a name in common. -/
theorem Holds.nodup_names (hinv : Inv x) (h : Holds x) : (x.creators.map Handle.name).Nodup := by
  refine List.Nodup.map_on (fun k hk j hj hname => hinv.eq_of_queue_eq hk hj ?_)
    (List.Nodup.of_map Handle.queue hinv.distinct)
  have hqueue := h k hk
  rw [hname, h j hj, Option.some.injEq] at hqueue
  exact hqueue.symm

/-- **Each name has one owner.** As long as no name is unlinked and no handle is lost: the names are
those of the open handles that have come with a new queue, and no two of these have the same.  So a
name can be opened if and only if such a handle has it; and a queue of a capacity that the system
grants beside the queues that there are, whatever system it is, can be created under a name unless such
a handle has it or the system keeps the name for itself.  What fails changes nothing, nor does dropping
a handle on a queue of somebody else, and when all handles have been dropped no name is left. -/
theorem Reachable.one_owner (h : Reachable Regular x) :
    (∀ n, (∃ q, x.store.find? n = some q) ↔ ∃ k ∈ x.creators, k.name = n) ∧
    (x.creators.map Handle.name).Nodup ∧
    (∀ name n, normalize name = .ok n →
      ((∃ k es, x.store.openNamed name = (.ok k, es)) ↔ ∃ k ∈ x.creators, k.name = n) ∧
      ∀ (kernel : Kernel) c, kernel.grants x.store c = true →
        ((∃ e s es, x.store.create name c kernel = (.error e, s, es)) ↔
          (∃ k ∈ x.creators, k.name = n) ∨ n = "/." ∨ n = "/..")) ∧
    (∀ name c (kernel : Kernel) e s es, x.store.create name c kernel = (.error e, s, es) →
      s = x.store) ∧
    (∀ o (kernel : Kernel) e s es, Pair.create x.store o kernel = (.error e, s, es) →
      s.names = x.store.names ∧ ∀ q, s.pending q = x.store.pending q) ∧
    (∀ k ∈ x.handles, k.lifecycle = .openOnly → (x.store.drop k).1 = x.store) ∧
    (x.handles = [] → x.store.names = []) := by
  have hinv := h.inv
  have hheld := h.held
  have hholds := (h.mono fun _ _ => orderly_of_regular).holds
  have hbound : ∀ n, (∃ q, x.store.find? n = some q) ↔ ∃ k ∈ x.creators, k.name = n :=
    fun n => hheld.bound_iff hholds
  refine ⟨hbound, hholds.nodup_names hinv, fun name n hname => ⟨?_, fun kernel c hc => ?_⟩,
    fun name c kernel e s es => Store.create_error, fun o kernel e s es hs => ?_,
    fun k _ hlifecycle => ?_, fun hnil => ?_⟩
  · rw [Store.openNamed_succeeds_iff hname, ← hbound n]
    refine ⟨fun hopens => hopens.2, fun ⟨q, hq⟩ => ⟨?_, q, hq⟩⟩
    obtain ⟨k, c, hk, -, rfl⟩ := hinv.bound n q hq
    exact (hinv.created k c hk).unreserved
  · rw [Store.create_fails_iff hname, Store.isReserved_iff, Option.isSome_iff_exists, hbound n, hc]
    simp only [Bool.true_eq_false, or_false]
    exact or_comm
  · obtain ⟨fifos, hfifos, rfl⟩ := Pair.create_error hs
    exact ⟨rfl, fun q => Store.pending_grow hfifos⟩
  · rw [Store.drop_eq, hlifecycle]
  · refine Store.names_eq_nil fun n => Option.eq_none_iff_forall_ne_some.2 fun q hq => ?_
    obtain ⟨k, hk, -⟩ := hheld n q hq
    rw [mem_creators, hnil] at hk
    cases hk.1

/-- Under a name that has its owner no other queue can be created, however the name is spelt, and
under another name one can. -/
theorem one_owner_of_shared :
    (∃ k es, shared.store.openNamed "q" = (.ok k, es)) ∧
      (∃ e s es, shared.store.create "q" {} = (.error e, s, es)) ∧
      (∃ e s es, shared.store.create "/q" {} = (.error e, s, es)) ∧
      ¬ ∃ e s es, shared.store.create "p" {} = (.error e, s, es) := by
  obtain ⟨-, -, hnames, -⟩ := Reachable.one_owner reachable_shared
  obtain ⟨hopens, hcreate⟩ := hnames "q" "/q" (by decide +kernel)
  obtain ⟨-, hcreate'⟩ := hnames "/q" "/q" (by decide +kernel)
  obtain ⟨-, hcreate''⟩ := hnames "p" "/p" (by decide +kernel)
  have howner : ∃ k ∈ shared.creators, k.name = "/q" := by decide +kernel
  refine ⟨hopens.2 howner, (hcreate .roomy {} (by decide +kernel)).2 (.inl howner),
    (hcreate' .roomy {} (by decide +kernel)).2 (.inl howner), fun hfails => ?_⟩
  have hcontra := (hcreate'' .roomy {} (by decide +kernel)).1 hfails
  revert hcontra
  decide +kernel

/-- The name of a directory is in its normal form with a slash, but the system gives it to no queue,
whether or not somebody has it. -/
theorem create_fails_without_owner :
    Reachable Regular {} ∧ normalize "." = .ok "/." ∧ Kernel.roomy.grants {} {} = true ∧
      (¬ ∃ k ∈ creators {}, k.name = "/.") ∧
      ∃ e s es, ({} : Session).store.create "." {} = (.error e, s, es) :=
  ⟨.refl, by decide +kernel, by decide +kernel, by decide +kernel,
    .cannotCreate "/." .accessDenied, {}, [], Prod.ext (by decide +kernel) rfl⟩

end IndexFeed.Queue.Session
