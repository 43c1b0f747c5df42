import IndexFeed.Queue.Store

/-!
# The store of queues

What each operation of the store does to the queues, the names and the messages that wait: one lemma
for each way an operation can go, and frame lemmas for what it leaves alone.
-/

set_option autoImplicit false

namespace IndexFeed.Queue.Store

variable {s s' : Store} {q p : QueueId} {ms : List Bytes} {m : Bytes} {h : Handle}
  {events : List Event} {e : Error} {kernel : Kernel}

/-! ## Messages that wait -/

/-- There is a queue with this id. -/
def Has (s : Store) (q : QueueId) : Prop := q < s.queues.length

@[simp] theorem has_setPending : (s.setPending q ms).Has p ↔ s.Has p := by
  simp only [Has, setPending, List.length_modify]

theorem pending_setPending (hq : s.Has q) : (s.setPending q ms).pending q = ms := by
  have hget : s.queues[q]? = some s.queues[q] := List.getElem?_eq_getElem hq
  simp only [pending, setPending, List.getElem?_modify_eq, hget, Option.map_eq_map, Option.map_some]

theorem pending_setPending_of_ne (hpq : p ≠ q) :
    (s.setPending q ms).pending p = s.pending p := by
  simp only [pending, setPending, List.getElem?_modify_ne _ _ (Ne.symm hpq)]

theorem setPending_setPending (s : Store) (q : QueueId) (ms ns : List Bytes) :
    (s.setPending q ms).setPending q ns = s.setPending q ns := by
  simp only [setPending, List.modify_modify_eq]
  rfl

theorem setPending_comm {ns : List Bytes} (hpq : p ≠ q) :
    (s.setPending p ms).setPending q ns = (s.setPending q ns).setPending p ms := by
  simp only [setPending, List.modify_modify_ne _ _ _ hpq]

theorem setPending_pending (s : Store) (q : QueueId) : s.setPending q (s.pending q) = s := by
  have hmodify :
      s.queues.modify q (fun fifo => { fifo with messages := s.pending q }) = s.queues := by
    refine List.ext_getElem? fun i => ?_
    rw [List.getElem?_modify]
    split
    · next hi =>
      subst hi
      cases hget : s.queues[q]? with
      | none => rfl
      | some fifo => simp [pending, hget]
    · simp
  rw [setPending, hmodify]

/-- A queue takes so many more messages. -/
def HasRoom (s : Store) (q : QueueId) (n : Nat) : Prop :=
  ∃ fifo, s.queues[q]? = some fifo ∧ fifo.messages.length + n ≤ fifo.maxMessages

theorem HasRoom.isFull {n : Nat} (hq : s.HasRoom q (n + 1)) : s.isFull q = false := by
  obtain ⟨fifo, hget, hle⟩ := hq
  simp only [Store.isFull, hget, decide_eq_false_iff_not]
  omega

theorem HasRoom.push {n : Nat} (hq : s.HasRoom q (n + 1)) (m : Bytes) :
    (s.push q m).HasRoom q n := by
  obtain ⟨fifo, hget, hle⟩ := hq
  refine ⟨{ fifo with messages := fifo.messages ++ [m] }, ?_, ?_⟩
  · simp [Store.push, setPending, pending, hget]
  · simp only [List.length_append, List.length_singleton]
    omega

theorem HasRoom.setPending_of_ne {n : Nat} (hq : s.HasRoom q n) (hpq : q ≠ p) :
    (s.setPending p ms).HasRoom q n := by
  obtain ⟨fifo, hget, hle⟩ := hq
  exact ⟨fifo, by rw [setPending, List.getElem?_modify_ne _ _ (Ne.symm hpq), hget], hle⟩

@[simp] theorem has_push : (s.push q m).Has p ↔ s.Has p := has_setPending

theorem pending_push (hq : s.Has q) : (s.push q m).pending q = s.pending q ++ [m] :=
  pending_setPending hq

theorem pending_push_of_ne (hpq : p ≠ q) : (s.push q m).pending p = s.pending p :=
  pending_setPending_of_ne hpq

/-! ## Sending and receiving -/

theorem sendBytes_ok (hs : s.sendBytes h m = (.ok (), s', events)) :
    m.length ≤ h.maxMessageSize ∧ s' = s.push h.queue m := by
  unfold sendBytes at hs
  split at hs
  · cases hs
  · next hle =>
    cases hs
    exact ⟨Nat.le_of_not_lt hle, rfl⟩

theorem sendBytes_of_le (hm : m.length ≤ h.maxMessageSize) :
    s.sendBytes h m = (.ok (), s.push h.queue m, [.sent h.name m.length]) := by
  rw [sendBytes, if_neg (Nat.not_lt.2 hm)]

/-- A message that is too large is not put into the queue. -/
theorem sendBytes_error (hs : s.sendBytes h m = (.error e, s', events)) : s' = s := by
  unfold sendBytes at hs
  split at hs
  · cases hs
    rfl
  · cases hs

/-- A value that is not sent leaves everything as it is. -/
theorem sendWritten_error {written : Except Json.Error Bytes}
    (hs : s.sendWritten h written = (.error e, s', events)) : s' = s := by
  cases written with
  | error reason =>
    cases hs
    rfl
  | ok m => exact sendBytes_error hs

/-- A receive takes the oldest message, whatever its decoder makes of it, or finds none. -/
theorem receive_cases {α : Type} {d : Json.Decoder α} {wait : Span} {res : Except Error α}
    (hs : s.receive h d wait = (res, s', events)) :
    (s.pending h.queue = [] ∧ res = .error (.timedOut wait) ∧ s' = s) ∨
      ∃ m rest, s.pending h.queue = m :: rest ∧ res = decode d m ∧
        s' = s.setPending h.queue rest := by
  unfold receive at hs
  split at hs
  · next hnil =>
    cases hs
    exact .inl ⟨hnil, rfl, rfl⟩
  · next m rest hcons =>
    cases hs
    exact .inr ⟨m, rest, hcons, rfl, rfl⟩

theorem receive_of_cons {α : Type} {d : Json.Decoder α} {wait : Span} {rest : List Bytes}
    (hq : s.pending h.queue = m :: rest) :
    s.receive h d wait =
      (decode d m, s.setPending h.queue rest, [.received h.name m.length]) := by
  rw [receive, hq]

theorem receive_of_nil {α : Type} {d : Json.Decoder α} {wait : Span}
    (hq : s.pending h.queue = []) :
    s.receive h d wait = (.error (.timedOut wait), s, [.receiveTimedOut h.name wait]) := by
  rw [receive, hq]

/-- A message that is no value is not taken for one that has not come. -/
theorem isTimeout_of_decode {α : Type} {d : Json.Decoder α} (hd : decode d m = .error e) :
    e.isTimeout = false := by
  unfold decode at hd
  split at hd
  · cases hd
  · split at hd <;> cases hd <;> rfl

/-- Taking a message without waiting goes as a receive does, except that finding none is no error. -/
theorem tryReceive_cases {α : Type} {d : Json.Decoder α} {res : Except Error (Option α)}
    (hs : s.tryReceive h d = (res, s', events)) :
    (s.pending h.queue = [] ∧ res = .ok none ∧ s' = s) ∨
      ∃ m rest, s.pending h.queue = m :: rest ∧ res = (decode d m).map some ∧
        s' = s.setPending h.queue rest := by
  unfold tryReceive at hs
  cases hq : s.pending h.queue with
  | nil =>
    rw [receive_of_nil hq] at hs
    cases hs
    exact .inl ⟨rfl, rfl, rfl⟩
  | cons m rest =>
    rw [receive_of_cons hq] at hs
    refine .inr ⟨m, rest, rfl, ?_⟩
    cases hd : decode d m with
    | ok a =>
      rw [hd] at hs
      cases hs
      exact ⟨rfl, rfl⟩
    | error e =>
      simp only [hd, isTimeout_of_decode hd, Bool.false_eq_true, if_false] at hs
      cases hs
      exact ⟨rfl, rfl⟩

/-! ## Creating and opening -/

@[simp] theorem queues_withQueue (s : Store) (n : String) (c : Capacity) :
    (s.withQueue n c).queues =
      s.queues ++ [⟨c.maxMessages.toNat, c.maxMessageSize.toNat, []⟩] := rfl

@[simp] theorem names_withQueue (s : Store) (n : String) (c : Capacity) :
    (s.withQueue n c).names = (n, s.queues.length) :: s.names := rfl

theorem create_ok {name : String} {c : Capacity}
    (hs : s.create name c kernel = (.ok h, s', events)) :
    ∃ n, normalize name = .ok n ∧ isReserved n = false ∧ s.find? n = none ∧
      kernel.grants s c = true ∧ h = ⟨s.queues.length, n, .createOnly, c.maxMessageSize.toNat⟩ ∧
      s' = s.withQueue n c := by
  unfold create at hs
  split at hs
  · cases hs
  · next n hn =>
    split at hs
    · cases hs
    · next hreserved =>
      split at hs
      · cases hs
      · next hfree =>
        split at hs
        · cases hs
        · next hgrants =>
          rw [Prod.mk.injEq, Prod.mk.injEq, Except.ok.injEq] at hs
          obtain ⟨rfl, rfl, -⟩ := hs
          exact ⟨n, hn, by simpa using hreserved, by simpa using hfree,
            Option.isNone_iff_eq_none.2 hgrants, rfl, rfl⟩

theorem create_lifecycle {name : String} {c : Capacity}
    (hs : s.create name c kernel = (.ok h, s', events)) : h.lifecycle = .createOnly := by
  obtain ⟨n, -, -, -, -, rfl, -⟩ := create_ok hs
  rfl

theorem openNamed_ok {name : String} (hs : s.openNamed name = (.ok h, events)) :
    ∃ n id, normalize name = .ok n ∧ isReserved n = false ∧ s.find? n = some id ∧
      h.queue = id ∧ h.name = n ∧ h.lifecycle = .openOnly := by
  unfold openNamed at hs
  split at hs
  · cases hs
  · next n hn =>
    split at hs
    · cases hs
    · next hreserved =>
      split at hs
      · cases hs
      · next id hid =>
        cases hs
        exact ⟨n, id, hn, by simpa using hreserved, hid, rfl, rfl, rfl⟩

theorem openNamed_lifecycle {name : String} (hs : s.openNamed name = (.ok h, events)) :
    h.lifecycle = .openOnly := by
  obtain ⟨-, -, -, -, -, -, -, hlifecycle⟩ := openNamed_ok hs
  exact hlifecycle

theorem create_error {name : String} {c : Capacity}
    (hs : s.create name c kernel = (.error e, s', events)) : s' = s := by
  unfold create at hs
  split at hs
  · cases hs
    rfl
  · split at hs
    · cases hs
      rfl
    · split at hs
      · cases hs
        rfl
      · split at hs
        · cases hs
          rfl
        · cases hs

theorem isReserved_iff {n : String} : isReserved n = true ↔ n = "/." ∨ n = "/.." := by
  rw [isReserved, Bool.or_eq_true, beq_iff_eq, beq_iff_eq]

/-- What stands in the way of a queue under a name in its normal form. -/
theorem create_fails_iff {name n : String} {c : Capacity} (hn : normalize name = .ok n) :
    (∃ e s' events, s.create name c kernel = (.error e, s', events)) ↔
      isReserved n = true ∨ (s.find? n).isSome = true ∨ kernel.grants s c = false := by
  simp only [create, hn, Kernel.grants]
  split
  · next hreserved => simp [hreserved]
  · next hreserved =>
    split
    · next htaken => simp [htaken]
    · next htaken =>
      cases hrefusal : kernel.refusal? s c with
      | some reason => simp
      | none => simp [hreserved, htaken]

/-- A name in its normal form can be opened if it is bound, and the kernel gives it to queues. -/
theorem openNamed_succeeds_iff {name n : String} (hn : normalize name = .ok n) :
    (∃ h events, s.openNamed name = (.ok h, events)) ↔
      isReserved n = false ∧ ∃ q, s.find? n = some q := by
  simp only [openNamed, hn]
  split
  · next hreserved => simp [hreserved]
  · next hreserved =>
    split
    · next hfree => simp [hreserved, hfree]
    · next q hq => simp [hreserved, hq]

/-! ## Names and sizes -/

/-- The most octets of a message of a queue. -/
def limit? (s : Store) (q : QueueId) : Option Nat := s.queues[q]?.map Fifo.maxMessageSize

theorem has_of_limit? {n : Nat} (hq : s.limit? q = some n) : s.Has q := by
  obtain ⟨fifo, hget, -⟩ := Option.map_eq_some_iff.1 hq
  exact (List.getElem?_eq_some_iff.1 hget).1

@[simp] theorem limit?_setPending : (s.setPending q ms).limit? p = s.limit? p := by
  simp only [limit?, setPending, List.getElem?_modify]
  split
  · next hqp =>
    subst hqp
    cases s.queues[q]? with
    | none => rfl
    | some fifo => rfl
  · rw [Option.map_eq_map, Option.map_id_fun', id]

theorem openNamed_limit? {name : String} {size : Nat} (hs : s.openNamed name = (.ok h, events))
    (hsize : s.limit? h.queue = some size) : h.maxMessageSize = size := by
  unfold openNamed at hs
  split at hs
  · cases hs
  · split at hs
    · cases hs
    · split at hs
      · cases hs
      · cases hs
        obtain ⟨fifo, hget, rfl⟩ := Option.map_eq_some_iff.1 hsize
        simp only [hget]

/-- A new queue has a name that was free. -/
theorem find?_create {name : String} {c : Capacity}
    (hs : s.create name c kernel = (.ok h, s', events)) :
    s.find? h.name = none ∧ ∀ n, s'.find? n = if n = h.name then some h.queue else s.find? n := by
  obtain ⟨n, -, -, hfree, -, rfl, rfl⟩ := create_ok hs
  refine ⟨hfree, fun m => ?_⟩
  simp only [find?, names_withQueue, List.lookup_cons]
  by_cases hm : m = n
  · rw [if_pos hm, beq_iff_eq.2 hm]
  · rw [if_neg hm, beq_eq_false_iff_ne.2 hm]

theorem find?_removeName (s : Store) (n m : String) :
    (s.removeName n).find? m = if m = n then none else s.find? m := by
  unfold removeName find?
  dsimp only
  induction s.names with
  | nil => simp
  | cons entry names ih =>
    obtain ⟨k, q⟩ := entry
    by_cases hk : k = n
    · subst hk
      rw [List.filter_cons_of_neg (by simp), ih, List.lookup_cons]
      by_cases hm : m = k
      · rw [if_pos hm, if_pos hm]
      · rw [if_neg hm, if_neg hm, beq_eq_false_iff_ne.2 hm]
    · rw [List.filter_cons_of_pos (by simpa using hk), List.lookup_cons, List.lookup_cons]
      by_cases hm : m = k
      · subst hm
        rw [if_neg hk, beq_self_eq_true]
      · rw [beq_eq_false_iff_ne.2 hm]
        exact ih

theorem removeName_of_find? {n : String} (hn : s.find? n = none) : s.removeName n = s := by
  have hfilter : s.names.filter (fun entry => entry.1 != n) = s.names := by
    refine List.filter_eq_self.2 fun entry hentry => ?_
    have hne : (n == entry.1) = false := by
      simpa using List.lookup_eq_none_iff.1 hn entry hentry
    exact bne_iff_ne.2 (beq_eq_false_iff_ne.1 hne).symm
  rw [removeName, hfilter]

theorem names_eq_nil (hs : ∀ n, s.find? n = none) : s.names = [] := by
  refine List.eq_nil_iff_forall_not_mem.2 fun entry hentry => ?_
  have hne := List.lookup_eq_none_iff.1 (hs entry.1) entry hentry
  simp at hne

/-- Of a dropped handle the name goes, if the handle has created its queue. -/
theorem drop_eq (s : Store) (h : Handle) :
    (s.drop h).1 = match h.lifecycle with
      | .createOnly => s.removeName h.name
      | .openOnly => s := by
  unfold drop
  cases h.lifecycle with
  | openOnly => rfl
  | createOnly =>
    dsimp only
    split
    · rfl
    · next hfree => exact (removeName_of_find? (by simpa using hfree)).symm

/-- Removing a name removes just this name, or nothing. -/
theorem unlink_cases {name : String} {res : Except Error Bool} (hs : s.unlink name = (res, s')) :
    s' = s ∨ ∃ n, normalize name = .ok n ∧ s' = s.removeName n := by
  unfold unlink at hs
  split at hs
  · cases hs
    exact .inl rfl
  · next n hn =>
    split at hs
    · cases hs
      exact .inl rfl
    · split at hs
      · cases hs
        exact .inr ⟨n, hn, rfl⟩
      · cases hs
        exact .inl rfl

/-! ## More queues -/

/-- The store with more queues, which have no names yet. -/
def grow (s : Store) (fifos : List Fifo) : Store := { s with queues := s.queues ++ fifos }

theorem limit?_grow {fifos : List Fifo} (hq : s.Has q) : (s.grow fifos).limit? q = s.limit? q := by
  rw [limit?, limit?, grow, List.getElem?_append_left hq]

theorem pending_grow {fifos : List Fifo} (hfifos : ∀ fifo ∈ fifos, fifo.messages = []) :
    (s.grow fifos).pending q = s.pending q := by
  by_cases hq : s.Has q
  · simp only [pending, grow, List.getElem?_append_left hq]
  · have hold : s.queues[q]? = none := List.getElem?_eq_none (Nat.le_of_not_lt hq)
    simp only [pending, grow, hold]
    split
    · next fifo hget =>
      rw [List.getElem?_append_right (Nat.le_of_not_lt hq)] at hget
      exact hfifos fifo (List.mem_of_getElem? hget)
    · rfl

end IndexFeed.Queue.Store
