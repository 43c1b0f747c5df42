import IndexFeed.Proofs.Queue.Store
import IndexFeed.Queue.Pair

/-!
# The two queues of a pair

A pair that has been created has two queues of its own, both empty, and whoever attaches with the
same options while the names stand gets handles on these two, each in its direction.
-/

set_option autoImplicit false

namespace IndexFeed.Queue.Pair

variable {kernel : Kernel} {s s' : Store} {o : Options} {d w : Pair} {events : List Event}

/-- The queues of a pair exist, and they are two. -/
structure Stands (s : Store) (p : Pair) : Prop where
  hasToWorker : s.Has p.toWorker.queue
  hasToDriver : s.Has p.toDriver.queue
  ne : p.toWorker.queue ≠ p.toDriver.queue

/-- The names that the options give lead to the queues of a pair. -/
structure Named (names : List (String × QueueId)) (o : Options) (p : Pair) : Prop where
  toWorker : ∃ name n, o.queueName .toWorker = .ok name ∧ normalize name = .ok n ∧
    names.lookup n = some p.toWorker.queue
  toDriver : ∃ name n, o.queueName .toDriver = .ok name ∧ normalize name = .ok n ∧
    names.lookup n = some p.toDriver.queue

/-- Both ends of a pair lead to the same two queues. -/
structure Shares (d w : Pair) : Prop where
  toWorker : w.toWorker.queue = d.toWorker.queue
  toDriver : w.toDriver.queue = d.toDriver.queue

/-- A pair that has been created is one queue created after the other. -/
theorem create_ok_split (h : create s o kernel = (.ok d, s', events)) :
    ∃ workerName driverName s₁ e₁ e₂, o.queueName .toWorker = .ok workerName ∧
      o.queueName .toDriver = .ok driverName ∧
      s.create workerName o.capacity kernel = (.ok d.toWorker, s₁, e₁) ∧
      s₁.create driverName o.capacity kernel = (.ok d.toDriver, s', e₂) := by
  unfold create at h
  split at h
  · cases h
  · next workerName hworker =>
    split at h
    · cases h
    · next toWorker s₁ e₁ hcreate =>
      dsimp only at h
      split at h
      · cases h
      · next driverName hdriver =>
        split at h
        · cases h
        · next toDriver s₂ e₂ hcreate' =>
          cases h
          exact ⟨workerName, driverName, s₁, e₁, e₂, hworker, hdriver, hcreate, hcreate'⟩

/-- What a pair that has been created consists of. -/
theorem create_ok (h : create s o kernel = (.ok d, s', events)) :
    ∃ m n, (∃ name, o.queueName .toWorker = .ok name ∧ normalize name = .ok m) ∧
      (∃ name, o.queueName .toDriver = .ok name ∧ normalize name = .ok n) ∧ m ≠ n ∧
      d.toWorker.queue = s.queues.length ∧ d.toDriver.queue = s.queues.length + 1 ∧
      s'.names = (n, s.queues.length + 1) :: (m, s.queues.length) :: s.names ∧
      s'.queues = s.queues ++ [⟨o.maxMessages.toNat, o.maxMessageSize.toNat, []⟩,
        ⟨o.maxMessages.toNat, o.maxMessageSize.toNat, []⟩] := by
  obtain ⟨workerName, driverName, s₁, e₁, e₂, hworker, hdriver, hcreate, hcreate'⟩ :=
    create_ok_split h
  obtain ⟨m, hm, -, -, -, htoWorker, rfl⟩ := Store.create_ok hcreate
  obtain ⟨n, hn, -, hfree, -, htoDriver, rfl⟩ := Store.create_ok hcreate'
  refine ⟨m, n, ⟨workerName, hworker, hm⟩, ⟨driverName, hdriver, hn⟩, ?_, ?_, ?_, ?_, ?_⟩
  · rintro rfl
    simp [Store.find?] at hfree
  · rw [htoWorker]
  · simp [htoDriver]
  · simp
  · simp [Options.capacity]

/-- A queue that has been created and is dropped at once leaves no name. -/
theorem drop_of_create {name : String} {c : Capacity} {k : Handle}
    (h : s.create name c kernel = (.ok k, s', events)) :
    (s'.drop k).1 = s.grow [⟨c.maxMessages.toNat, c.maxMessageSize.toNat, []⟩] := by
  obtain ⟨n, -, -, hfree, -, rfl, rfl⟩ := Store.create_ok h
  have hnames : s.removeName n = s := Store.removeName_of_find? hfree
  rw [Store.removeName, Store.mk.injEq] at hnames
  rw [Store.drop_eq]
  simp only [Store.removeName, Store.grow, Store.mk.injEq, Store.queues_withQueue, true_and]
  rw [Store.names_withQueue, List.filter_cons_of_neg (by simp), hnames.2]

/-- A pair that cannot be created leaves at most a queue without a name and without messages. -/
theorem create_error {e : Error} (h : create s o kernel = (.error e, s', events)) :
    ∃ fifos : List Fifo, (∀ fifo ∈ fifos, fifo.messages = []) ∧ s' = s.grow fifos := by
  have hsame : s = s.grow [] := by rw [Store.grow, List.append_nil]
  unfold create at h
  split at h
  · cases h
    exact ⟨[], List.forall_mem_nil _, hsame⟩
  · next workerName hworker =>
    split at h
    · next hcreate =>
      cases h
      obtain rfl := Store.create_error hcreate
      exact ⟨[], List.forall_mem_nil _, hsame⟩
    · next toWorker s₁ e₁ hcreate =>
      have hundo : ∃ fifos : List Fifo, (∀ fifo ∈ fifos, fifo.messages = []) ∧
          (s₁.drop toWorker).1 = s.grow fifos :=
        ⟨_, List.forall_mem_singleton.2 rfl, drop_of_create hcreate⟩
      dsimp only at h
      split at h
      · cases h
        exact hundo
      · split at h
        · next hcreate' =>
          cases h
          obtain rfl := Store.create_error hcreate'
          exact hundo
        · cases h

/-- A pair that has been attached to is one queue opened after the other. -/
theorem attach_ok_split (h : attach s o = (.ok w, events)) :
    ∃ workerName driverName e₁ e₂, o.queueName .toWorker = .ok workerName ∧
      o.queueName .toDriver = .ok driverName ∧
      s.openNamed workerName = (.ok w.toWorker, e₁) ∧
      s.openNamed driverName = (.ok w.toDriver, e₂) := by
  unfold attach at h
  split at h
  · cases h
  · next workerName hworker =>
    split at h
    · cases h
    · next toWorker e₁ hopen =>
      split at h
      · cases h
      · next driverName hdriver =>
        split at h
        · cases h
        · next toDriver e₂ hopen' =>
          cases h
          exact ⟨workerName, driverName, e₁, e₂, hworker, hdriver, hopen, hopen'⟩

/-- The queues of a new pair are its own, empty, and can be found under their names. -/
theorem create_spec (h : create s o kernel = (.ok d, s', events)) :
    Stands s' d ∧ Named s'.names o d ∧ s'.pending d.toWorker.queue = [] ∧
      s'.pending d.toDriver.queue = [] := by
  obtain ⟨m, n, ⟨workerName, hworker, hm⟩, ⟨driverName, hdriver, hn⟩, hne, hw, hd, hnames,
    hqueues⟩ := create_ok h
  refine ⟨⟨?_, ?_, ?_⟩, ⟨⟨workerName, m, hworker, hm, ?_⟩, driverName, n, hdriver, hn, ?_⟩, ?_, ?_⟩
  · simp [Store.Has, hw, hqueues]
  · simp [Store.Has, hd, hqueues]
  · rw [hw, hd]
    exact Nat.ne_of_lt (Nat.lt_succ_self _)
  · have hmn : (m == n) = false := beq_eq_false_iff_ne.2 hne
    simp [hnames, List.lookup_cons, hmn, hw]
  · simp [hnames, hd]
  · simp [Store.pending, hw, hqueues]
  · simp [Store.pending, hd, hqueues]

/-- Attaching leads to the queues that the names stand for. -/
theorem shares_of_attach (h : attach s o = (.ok w, events)) (hn : Named s.names o d) :
    Shares d w := by
  obtain ⟨⟨workerName, m, hworker, hm, hfindWorker⟩, driverName, n, hdriver, hn, hfindDriver⟩ := hn
  obtain ⟨workerName', driverName', e₁, e₂, hworker', hdriver', hopen, hopen'⟩ := attach_ok_split h
  rw [hworker, Except.ok.injEq] at hworker'
  rw [hdriver, Except.ok.injEq] at hdriver'
  subst hworker' hdriver'
  obtain ⟨m', id, hm', -, hid, hqueue, -, -⟩ := Store.openNamed_ok hopen
  obtain ⟨n', id', hn', -, hid', hqueue', -, -⟩ := Store.openNamed_ok hopen'
  rw [hm, Except.ok.injEq] at hm'
  rw [hn, Except.ok.injEq] at hn'
  subst hm' hn'
  rw [Store.find?, hfindWorker, Option.some.injEq] at hid
  rw [Store.find?, hfindDriver, Option.some.injEq] at hid'
  exact ⟨hqueue.trans hid.symm, hqueue'.trans hid'.symm⟩

end IndexFeed.Queue.Pair
