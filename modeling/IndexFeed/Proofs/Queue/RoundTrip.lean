import IndexFeed.Proofs.Json.Acceptance
import IndexFeed.Proofs.Json.Writing
import IndexFeed.Proofs.Queue.Store
import IndexFeed.Proofs.Database.Agreement
import IndexFeed.Queue.Message

/-!
# Messages come back

Every command, task and reply is read back from what is written of it, whatever its texts and numbers
are, and so comes out of a queue as it went in.
-/

set_option autoImplicit false

namespace IndexFeed

open Json (Object Record Shape Slot Tagged)

variable {α : Type} {n k : Nat}

/-! ## Numbers and texts in messages -/

namespace Json

/-- A natural number in the range of a field. -/
theorem accept_natural {expected : String} {bits : Nat} (hbits : k < Nat.pow 2 bits)
    (hk : k < 0x10000000000000000) :
    (Shape.natural expected bits).accept (.nat k) = .ok k := by
  have hmin : min k 0xffffffffffffffff = k := Nat.min_eq_left (by omega)
  have hrange : (0 : Int) ≤ k ∧ (k : Int) ≤ (Nat.pow 2 bits : Int) - 1 := by omega
  simp only [Shape.natural, Shape.map, Shape.integer, Shape.number, nat, hmin, if_pos hrange,
    Except.map, Int.toNat_natCast]

/-- All numbers in a value are integers. -/
def Integral (j : Json) : Prop := ∀ x ∈ j.numbers, ∃ i hleast hmost, x = .integer i hleast hmost

theorem Integral.written {j : Json} (h : j.Integral) :
    Written j.depth (.value j) (Utf8.encodeChars j.chars) := by
  have hwritten := written_chars (f := id) j fun x hx => by
    obtain ⟨i, hleast, hmost, rfl⟩ := h x hx
    exact numberWritten_integer i hleast hmost
  have hself : j.mapNumbers id = j := mapNumbers_eq_self j fun _ _ => rfl
  rwa [hself] at hwritten

end Json

/-! ## Commands -/

namespace CompileCommand

theorem agrees_slots : ∀ slot ∈ record.slots, ∀ s, (slot.shape s).Agrees := by
  simp only [record, List.forall_mem_cons]
  refine ⟨?_, ?_, ?_, ?_, ?_, List.forall_mem_nil _⟩
  · exact fun s => Shape.agrees_text.map
  · exact fun s => Shape.agrees_text.map
  · exact fun s => Shape.agrees_text.list.map
  · exact fun s => Shape.agrees_text.optional.map
  · exact fun s => Shape.agrees_text.optional.map

theorem agrees_shape : shape.Agrees := Record.agrees agrees_slots

/-- A list of texts is accepted as it is. -/
theorem mapM_accept_text (ss : List String) :
    (ss.map Json.string).mapM Shape.text.accept = .ok ss := by
  induction ss with
  | nil => rfl
  | cons s ss ih =>
    rw [List.map_cons, List.mapM_cons, ih]
    rfl

/-- A member that is there only if it has a value. -/
theorem acceptMembers_arguments {f : Fields} (hf : f.arguments = none) (ss : List String) :
    record.acceptMembers f
        (if ss.isEmpty then [] else [("arguments", .array (ss.map Json.string))]) =
      .ok { f with arguments := if ss.isEmpty then none else some ss } := by
  obtain ⟨directory, file, arguments, command, output⟩ := f
  obtain rfl : arguments = none := hf
  split
  · rfl
  · have hlist : (Shape.list Shape.text).accept (.array (ss.map Json.string)) = .ok ss :=
      mapM_accept_text ss
    have hset : ((Shape.list Shape.text).accept (.array (ss.map Json.string))).map
        (fun v => ({ directory, file, arguments := some v, command, output } : Fields)) =
          .ok { directory, file, arguments := some ss, command, output } := by
      rw [hlist]
      rfl
    exact congrArg (Except.bind · fun f => record.acceptMembers f []) hset

theorem acceptMembers_command {f : Fields} (hf : f.command = none) (o : Option String) :
    record.acceptMembers f (o.map fun s => ("command", Json.string s)).toList =
      .ok { f with command := o.map some } := by
  obtain ⟨directory, file, arguments, command, output⟩ := f
  obtain rfl : command = none := hf
  cases o <;> rfl

theorem acceptMembers_output {f : Fields} (hf : f.output = none) (o : Option String) :
    record.acceptMembers f (o.map fun s => ("output", Json.string s)).toList =
      .ok { f with output := o.map some } := by
  obtain ⟨directory, file, arguments, command, output⟩ := f
  obtain rfl : output = none := hf
  cases o <;> rfl

/-- **The members of a command describe it**: what is left out comes back as its default. -/
theorem accept_toJson (c : CompileCommand) : shape.accept c.toJson = .ok c := by
  obtain ⟨directory, file, arguments, command, output⟩ := c
  have hneeded : record.acceptMembers record.start
      [("directory", .string directory), ("file", .string file)] =
        .ok { directory := some directory, file := some file } := rfl
  have hmembers : record.acceptMembers record.start
      (CompileCommand.mk directory file arguments command output).members = .ok
        { directory := some directory, file := some file,
          arguments := if arguments.isEmpty then none else some arguments,
          command := command.map some, output := output.map some } := by
    simp only [members, Json.acceptMembers_append, hneeded, Except.bind,
      acceptMembers_arguments, acceptMembers_command, acceptMembers_output]
  have hbuild : record.ofFields
      { directory := some directory, file := some file,
        arguments := if arguments.isEmpty then none else some arguments,
        command := command.map some, output := output.map some } =
          .ok ⟨directory, file, arguments, command, output⟩ := by
    have hcommand : ∀ o : Option String, (o.map some).getD none = o := fun o => by cases o <;> rfl
    have harguments : (if arguments.isEmpty then none else some arguments).getD [] = arguments := by
      cases arguments <;> rfl
    simp only [record, Record.need, bind, Except.bind, pure, Except.pure, Fields.build, hcommand,
      harguments]
  exact (congrArg (Except.bind · record.ofFields) hmembers).trans hbuild

/-- Texts have neither numbers nor brackets in them. -/
theorem itemNumbers_strings (ss : List String) : Json.itemNumbers (ss.map Json.string) = [] := by
  induction ss with
  | nil => rfl
  | cons s ss ih => exact ih

theorem itemDepth_strings (ss : List String) : Json.itemDepth (ss.map Json.string) = 0 := by
  induction ss with
  | nil => rfl
  | cons s ss ih => exact ih

theorem numbers_toJson (c : CompileCommand) : c.toJson.numbers = [] := by
  have hnone : ∀ (key : String) (o : Option String),
      Json.memberNumbers (o.map fun s => (key, Json.string s)).toList = [] :=
    fun key o => by cases o <;> rfl
  have harguments : Json.memberNumbers (if c.arguments.isEmpty then []
      else [("arguments", .array (c.arguments.map Json.string))]) = [] := by
    split
    · rfl
    · exact (List.append_nil _).trans (itemNumbers_strings c.arguments)
  simp only [toJson, members, Json.numbers, Json.memberNumbers_append, hnone, harguments]
  rfl

theorem depth_toJson_le (c : CompileCommand) : c.toJson.depth ≤ 2 := by
  have hnone : ∀ (key : String) (o : Option String),
      Json.memberDepth (o.map fun s => (key, Json.string s)).toList = 0 :=
    fun key o => by cases o <;> rfl
  have harguments : Json.memberDepth (if c.arguments.isEmpty then []
      else [("arguments", .array (c.arguments.map Json.string))]) ≤ 1 := by
    split
    · exact Nat.zero_le 1
    · exact Nat.le_of_eq (congrArg (max · 0) (congrArg (· + 1) (itemDepth_strings c.arguments)))
  have hneeded : Json.memberDepth
      [("directory", .string c.directory), ("file", .string c.file)] = 0 := rfl
  simp only [toJson, members, Json.depth, Json.memberDepth_append, hnone, hneeded, Nat.zero_max,
    Nat.max_zero]
  omega

end CompileCommand

/-! ## Tasks -/

namespace Queue.Task

theorem accept_index (jobId : UInt64) (c : CompileCommand) :
    indexRecord.accept (.object [("job_id", .nat jobId.toNat), ("command", c.toJson)]) =
      .ok (.index jobId c) := by
  have hjobId : (Shape.natural "u64" 64).accept (.nat jobId.toNat) = .ok jobId.toNat :=
    Json.accept_natural jobId.toNat_lt jobId.toNat_lt
  have hmembers : indexRecord.acceptMembers {}
      [("job_id", .nat jobId.toNat), ("command", c.toJson)] =
        .ok { jobId := some jobId.toNat, command := some c } := by
    rw [Json.acceptMembers_cons rfl rfl (Json.accept_map hjobId),
      Json.acceptMembers_cons rfl rfl (Json.accept_map c.accept_toJson)]
    rfl
  have hbuild : indexRecord.ofFields { jobId := some jobId.toNat, command := some c } =
      .ok (.index (.ofNat jobId.toNat) c) := rfl
  rw [UInt64.ofNat_toNat] at hbuild
  exact (congrArg (Except.bind · indexRecord.ofFields) hmembers).trans hbuild

theorem integral_toJson (t : Task) : t.toJson.Integral := by
  intro x hx
  cases t with
  | index jobId c =>
    simp only [toJson, members, Json.numbers, Json.memberNumbers, c.numbers_toJson, Json.nat,
      List.nil_append, List.append_nil, List.mem_singleton] at hx
    exact ⟨_, _, _, hx⟩
  | shutdown => cases hx

theorem depth_toJson_le (t : Task) : t.toJson.depth ≤ 3 := by
  cases t with
  | index jobId c =>
    have hc := c.depth_toJson_le
    simp only [toJson, members, Json.depth, Json.memberDepth, Json.nat, Nat.zero_max, Nat.max_zero]
    omega
  | shutdown => decide

/-- **A task is read from its own text.** -/
theorem makes_decoder (t : Task) {n : Nat} (hn : n ≤ Json.deepest) :
    decoder.Makes n t.toJson t := by
  cases t with
  | index jobId c =>
    refine Json.Decoder.Makes.refine (Tagged.makes_decode_cons ?_ hn ?_)
      (accept_index jobId c)
    · decide
    · simp [Tagged.key]
  | shutdown =>
    refine Json.Decoder.Makes.refine (Tagged.makes_decode_cons ?_ hn nofun) rfl
    decide

end Queue.Task

/-! ## Replies -/

namespace Queue.Reply

variable {slots : List (Slot Fields)} {name : String}
  {build : ({α : Type} → String → Option α → Except Json.Misfit α) → Fields →
    Except Json.Misfit Reply}

theorem accept_natural32 (workerId : UInt32) :
    (Shape.natural "u32" 32).accept (.nat workerId.toNat) = .ok workerId.toNat :=
  Json.accept_natural workerId.toNat_lt (Nat.lt_trans workerId.toNat_lt (by decide))

theorem accept_natural64 (expected : String) (k : UInt64) :
    (Shape.natural expected 64).accept (.nat k.toNat) = .ok k.toNat :=
  Json.accept_natural k.toNat_lt k.toNat_lt

/-- A reply is put together from the members of its record. -/
theorem accept_recordOf {ms : Object} {f : Fields} {r : Reply}
    (hms : (recordOf name slots build).acceptMembers {} ms = .ok f)
    (hbuild : build Record.need f = .ok r) : (recordOf name slots build).accept (.object ms) = .ok r :=
  (congrArg (Except.bind · (build Record.need)) hms).trans hbuild

theorem ofTagged_ready (workerId : UInt32) :
    ofTagged ⟨"ready", .object [("worker_id", .nat workerId.toNat)]⟩ = .ok (.ready workerId) := by
  refine accept_recordOf (f := { workerId := some workerId.toNat }) ?_ ?_
  · rw [Json.acceptMembers_cons rfl rfl (Json.accept_map (accept_natural32 workerId))]
    rfl
  · have hbuild : readyFrom Record.need { workerId := some workerId.toNat } =
        .ok (.ready (.ofNat workerId.toNat)) := rfl
    rwa [UInt32.ofNat_toNat] at hbuild

theorem ofTagged_indexed (jobId : UInt64) (file : String) (argumentCount : UInt64) :
    ofTagged ⟨"indexed", .object [("job_id", .nat jobId.toNat), ("file", .string file),
      ("argument_count", .nat argumentCount.toNat)]⟩ = .ok (.indexed jobId file argumentCount) := by
  let fields : Fields :=
    { jobId := some jobId.toNat, file := some file, argumentCount := some argumentCount.toNat }
  refine accept_recordOf (f := fields) ?_ ?_
  · rw [Json.acceptMembers_cons rfl rfl (Json.accept_map (accept_natural64 "u64" jobId)),
      Json.acceptMembers_cons rfl rfl rfl,
      Json.acceptMembers_cons rfl rfl (Json.accept_map (accept_natural64 "usize" argumentCount))]
    rfl
  · have hbuild : indexedFrom Record.need fields =
        .ok (.indexed (.ofNat jobId.toNat) file (.ofNat argumentCount.toNat)) := rfl
    rwa [UInt64.ofNat_toNat, UInt64.ofNat_toNat] at hbuild

theorem ofTagged_failed (jobId : UInt64) (message : String) :
    ofTagged ⟨"failed", .object [("job_id", .nat jobId.toNat), ("message", .string message)]⟩ =
      .ok (.failed jobId message) := by
  refine accept_recordOf (f := { jobId := some jobId.toNat, message := some message }) ?_ ?_
  · rw [Json.acceptMembers_cons rfl rfl (Json.accept_map (accept_natural64 "u64" jobId)),
      Json.acceptMembers_cons rfl rfl rfl]
    rfl
  · have hbuild : failedFrom Record.need { jobId := some jobId.toNat, message := some message } =
        .ok (.failed (.ofNat jobId.toNat) message) := rfl
    rwa [UInt64.ofNat_toNat] at hbuild

theorem integral_toJson (r : Reply) : r.toJson.Integral := by
  intro x hx
  cases r with
  | ready workerId =>
    simp only [toJson, members, Json.numbers, Json.memberNumbers, Json.nat, List.nil_append,
      List.append_nil, List.mem_singleton] at hx
    exact ⟨_, _, _, hx⟩
  | indexed jobId file argumentCount =>
    simp only [toJson, members, Json.numbers, Json.memberNumbers, Json.nat, List.nil_append,
      List.append_nil, List.mem_append, List.mem_singleton] at hx
    rcases hx with hx | hx <;> exact ⟨_, _, _, hx⟩
  | failed jobId message =>
    simp only [toJson, members, Json.numbers, Json.memberNumbers, Json.nat, List.nil_append,
      List.append_nil, List.mem_singleton] at hx
    exact ⟨_, _, _, hx⟩
  | rejected message => cases hx

theorem depth_toJson (r : Reply) : r.toJson.depth = 1 := by
  cases r <;> rfl

/-- **A reply is read from its own text.** -/
theorem makes_decoder (r : Reply) {n : Nat} (hn : n ≤ Json.deepest) :
    decoder.Makes n r.toJson r := by
  have htag : ∀ tag ∈ tags, tags.contains tag = true := by decide
  cases r with
  | ready workerId =>
    refine Json.Decoder.Makes.refine (Tagged.makes_decode_cons (htag "ready" ?_) hn ?_)
      (ofTagged_ready workerId)
    · simp [tags]
    · simp [Tagged.key]
  | indexed jobId file argumentCount =>
    refine Json.Decoder.Makes.refine (Tagged.makes_decode_cons (htag "indexed" ?_) hn ?_)
      (ofTagged_indexed jobId file argumentCount)
    · simp [tags]
    · simp [Tagged.key]
  | failed jobId message =>
    refine Json.Decoder.Makes.refine (Tagged.makes_decode_cons (htag "failed" ?_) hn ?_)
      (ofTagged_failed jobId message)
    · simp [tags]
    · simp [Tagged.key]
  | rejected message =>
    refine Json.Decoder.Makes.refine (Tagged.makes_decode_cons (htag "rejected" ?_) hn ?_) rfl
    · simp [tags]
    · simp [Tagged.key]

end Queue.Reply

/-! ## Through a queue -/

namespace Queue

open Store (encode)

namespace Store

variable {β : Type} {s : Store} {h : Handle} {E : Json.Decoder β} {wait : Span} {q : QueueId}

/-- What is left when so many messages of a queue have been received. -/
def receiveMany (s : Store) (h : Handle) (E : Json.Decoder β) (wait : Span) : Nat → Store
  | 0 => s
  | n + 1 => (s.receive h E wait).2.1.receiveMany h E wait n

theorem has_receive : (s.receive h E wait).2.1.Has q ↔ s.Has q := by
  cases hq : s.pending h.queue with
  | nil => rw [receive_of_nil hq]
  | cons m rest =>
    rw [receive_of_cons hq]
    exact has_setPending

theorem pending_receive (hq : s.Has h.queue) :
    (s.receive h E wait).2.1.pending h.queue = (s.pending h.queue).tail := by
  cases hpending : s.pending h.queue with
  | nil => rw [receive_of_nil hpending, hpending, List.tail_nil]
  | cons m rest => rw [receive_of_cons hpending, pending_setPending hq, List.tail_cons]

/-- Messages are received from the front, one after the other. -/
theorem pending_receiveMany (hq : s.Has h.queue) (n : Nat) :
    (s.receiveMany h E wait n).pending h.queue = (s.pending h.queue).drop n := by
  induction n generalizing s with
  | zero => rw [receiveMany, List.drop_zero]
  | succ n ih => rw [receiveMany, ih (has_receive.2 hq), pending_receive hq, List.drop_tail]

end Store

/-- The values of a type come back: from the octets that are written of them, and through every
queue that takes them. -/
structure Returns (write : α → Json) (D : Json.Decoder α) : Prop where
  decoded (a : α) : Store.decode D (encode (write a)) = .ok a
  /-- The two handles belong to one queue.  What waits in front of the value is received first, as
  whatever it is taken for. -/
  delivered {β : Type} (s s' : Store) (k h : Handle) (E : Json.Decoder β) (wait : Span) (a : α)
    (events : List Event) : s.Has k.queue → h.queue = k.queue →
      s.send k (write a) = (.ok (), s', events) →
        let t := s'.receiveMany h E wait (s.pending k.queue).length
        t.receive h D wait =
          (.ok a, t.setPending h.queue [], [.received h.name (encode (write a)).length])

variable {write : α → Json} {D : Json.Decoder α}

/-- A value that is read from its own octets comes out of a queue as well, when it is its turn. -/
theorem returns_of_decoded (h : ∀ a, Store.decode D (encode (write a)) = .ok a) :
    Returns write D where
  decoded := h
  delivered s s' k j E wait a events hq hj hsend := by
    obtain ⟨-, rfl⟩ := Store.sendBytes_ok hsend
    have hq' : (s.push k.queue (encode (write a))).Has j.queue := by rwa [hj, Store.has_push]
    have hturn : ((s.push k.queue (encode (write a))).receiveMany j E wait
        (s.pending k.queue).length).pending j.queue = [encode (write a)] := by
      rw [Store.pending_receiveMany hq', hj, Store.pending_push hq, List.drop_left]
    dsimp only
    rw [Store.receive_of_cons hturn, h]

/-- A value with no numbers but integers is read from its own octets by whatever makes it. -/
theorem decode_of_makes {j : Json} {a : α} (h : ∀ n ≤ Json.deepest, D.Makes n j a)
    (hj : j.Integral) (hdepth : j.depth ≤ Json.deepest) : Store.decode D (encode j) = .ok a :=
  Database.decode_eq_ok_iff.2 ((h _ hdepth).parse hj.written)

/-- **Messages come back.** Every command, every task and every reply, with whatever texts and
numbers in it, is read from its own octets as it was, and so comes out of every queue that takes it,
at any handle on that queue, after the messages that were sent before it. -/
theorem messages_return :
    Returns CompileCommand.toJson CompileCommand.shape.decode ∧
      Returns Task.toJson Task.decoder ∧ Returns Reply.toJson Reply.decoder := by
  refine ⟨returns_of_decoded fun c => ?_, returns_of_decoded fun t => ?_,
    returns_of_decoded fun r => ?_⟩
  · have hintegral : c.toJson.Integral := fun x hx => by
      rw [c.numbers_toJson] at hx
      cases hx
    exact decode_of_makes (fun n _ => CompileCommand.agrees_shape n _ c c.accept_toJson) hintegral
      (Nat.le_trans c.depth_toJson_le (by decide))
  · exact decode_of_makes (fun _ => t.makes_decoder) t.integral_toJson
      (Nat.le_trans t.depth_toJson_le (by decide))
  · exact decode_of_makes (fun _ => r.makes_decoder) r.integral_toJson
      (Nat.le_trans (Nat.le_of_eq r.depth_toJson) (by decide))

/-- A task that waits behind a message which is no task. -/
theorem messages_return_behind :
    let s : Store := ⟨[⟨2, 64, [[0x7b]]⟩], [("/tasks", 0)]⟩
    let k : Handle := ⟨0, "/tasks", .createOnly, 64⟩
    let j : Handle := ⟨0, "/tasks", .openOnly, 64⟩
    s.Has k.queue ∧ j.queue = k.queue ∧ ∃ s' events,
      s.send k Task.shutdown.toJson = (.ok (), s', events) ∧
        ((s'.receiveMany j Task.decoder .zero 1).receive j Task.decoder .zero).1 =
          .ok .shutdown := by
  intro s k j
  have hs : s.Has k.queue := Nat.zero_lt_one
  have hsend := Store.sendBytes_of_le (s := s) (h := k) (m := encode Task.shutdown.toJson)
    (by decide +kernel)
  have hreturn := messages_return.2.1.delivered s _ k j Task.decoder .zero .shutdown _ hs rfl hsend
  exact ⟨hs, rfl, _, _, hsend, congrArg Prod.fst hreturn⟩

end Queue

end IndexFeed
