import IndexFeed.Proofs.Queue.AnyValue
import IndexFeed.Proofs.Queue.Verdict
import IndexFeed.Proofs.Time.LongSpans

/-!
# Options that travel

A driver shares its options as JSON.  All fields but the timeout are read back as they were.  The timeout
goes through a number of seconds: what comes back is what is read of that number, which is the timeout
itself up to `2 ^ 23` seconds, something near to it beyond, and nothing at the very end.
-/

set_option autoImplicit false

namespace IndexFeed.Queue.Options

open Json (Shape Number Document Misfit accept_map acceptMembers_cons
  acceptMembers_cons_error accept_natural)
open Store (encode)

variable {o : Options} {t : Span} {m : Misfit} {x : Binary64}

/-! ## The shape of options -/

theorem agrees_slots : ∀ slot ∈ record.slots, ∀ s, (slot.shape s).Agrees := by
  simp only [record, List.forall_mem_cons]
  refine ⟨?_, ?_, ?_, ?_, ?_, ?_, List.forall_mem_nil _⟩
  · exact fun s => Shape.agrees_text.map
  · exact fun s => Shape.agrees_number.map.map
  · exact fun s => Shape.agrees_number.map.map
  · exact fun s => Shape.agrees_number.map.map
  · exact fun s => Shape.agrees_number.refine.map
  · exact fun s => Shape.agrees_number.map.map

theorem refuses_slots : ∀ slot ∈ record.slots, ∀ s, (slot.shape s).Refuses := by
  simp only [record, List.forall_mem_cons]
  refine ⟨?_, ?_, ?_, ?_, ?_, ?_, List.forall_mem_nil _⟩
  · exact fun s => Shape.refuses_text.map
  · exact fun s => Shape.refuses_number.map.map
  · exact fun s => Shape.refuses_number.map.map
  · exact fun s => Shape.refuses_number.map.map
  · exact fun s => (Shape.refuses_number.refine Shape.agrees_number).map
  · exact fun s => Shape.refuses_number.map.map

/-! ## Any number of seconds -/

/-- The members that describe options, with a number of seconds for the timeout. -/
def membersWith (o : Options) (x : Binary64) : Json.Object :=
  [("driver_id", .string o.driverId),
   ("worker_id", .nat o.workerId.toNat),
   ("max_messages", .nat o.maxMessages.toNat),
   ("max_message_size", .nat o.maxMessageSize.toNat),
   ("receive_timeout", .number (.float x)),
   ("max_idle_timeouts", .nat o.maxIdleTimeouts.toNat)]

/-- The fields in front of the timeout are filled. -/
theorem acceptMembers_before (o : Options) (x : Binary64) :
    record.acceptMembers record.start (o.membersWith x) = record.acceptMembers
      { driverId := some o.driverId, workerId := some o.workerId.toNat,
        maxMessages := some o.maxMessages.toNat, maxMessageSize := some o.maxMessageSize.toNat }
      [("receive_timeout", .number (.float x)), ("max_idle_timeouts", .nat o.maxIdleTimeouts.toNat)] := by
  have hworkerId : (Shape.natural "u32" 32).accept (.nat o.workerId.toNat) = .ok o.workerId.toNat :=
    accept_natural o.workerId.toNat_lt (Nat.lt_trans o.workerId.toNat_lt (by decide))
  have hsize : ∀ k : UInt64, (Shape.natural "usize" 64).accept (.nat k.toNat) = .ok k.toNat :=
    fun k => accept_natural k.toNat_lt k.toNat_lt
  rw [membersWith, acceptMembers_cons rfl rfl (accept_map rfl),
    acceptMembers_cons rfl rfl (accept_map hworkerId),
    acceptMembers_cons rfl rfl (accept_map (hsize o.maxMessages)),
    acceptMembers_cons rfl rfl (accept_map (hsize o.maxMessageSize))]
  rfl

theorem accept_float (x : Binary64) :
    (Shape.float.refine Span.ofFloat).accept (.number (.float x)) = Span.ofFloat x := rfl

/-- **Options are what their members say.** -/
theorem accept_membersWith (ht : Span.ofFloat x = .ok t) :
    shape.accept (.object (o.membersWith x)) = .ok { o with receiveTimeout := t } := by
  have hidle : (Shape.natural "u32" 32).accept (.nat o.maxIdleTimeouts.toNat) =
      .ok o.maxIdleTimeouts.toNat :=
    accept_natural o.maxIdleTimeouts.toNat_lt (Nat.lt_trans o.maxIdleTimeouts.toNat_lt (by decide))
  have hmembers := o.acceptMembers_before x
  rw [acceptMembers_cons rfl rfl (accept_map ((accept_float x).trans ht)),
    acceptMembers_cons rfl rfl (accept_map hidle), Json.Record.acceptMembers] at hmembers
  refine bind_eq_ok_iff.2 ⟨_, hmembers, ?_⟩
  simp [record, Fields.build]

/-- A number of seconds that is no span is what is wrong with the members. -/
theorem accept_membersWith_error (hm : Span.ofFloat x = .error m) :
    shape.accept (.object (o.membersWith x)) = .error m := by
  refine bind_eq_error_iff.2 (.inl ?_)
  rw [acceptMembers_before]
  exact acceptMembers_cons_error rfl rfl (map_eq_error_iff.2 ((accept_float x).trans hm)) _

/-! ## Texts of options -/

/-- What is read of the text of options. -/
theorem document_encode (o : Options) :
    Document Json.deepest (.object (o.membersWith o.receiveTimeout.toFloat.reread)) (encode o.toJson) := by
  have hwritten := Json.written_chars o.toJson fun x _ => Json.numberWritten_reread x
  have hblanks : Json.Cursor.Blanks [] := List.forall_mem_nil _
  have hdepth : o.toJson.depth ≤ Json.deepest := by
    simp [toJson, members, Json.depth, Json.memberDepth, Json.nat, Json.deepest]
  exact ⟨[], _, [], hblanks, hwritten.mono hdepth, hblanks, (List.append_nil _).symm⟩

theorem parse_encode (ht : o.receiveTimeout.reread = .ok t) :
    shape.decode.parse (encode o.toJson) = .ok { o with receiveTimeout := t } := by
  have hagrees : shape.Agrees := Json.Record.agrees agrees_slots
  exact o.document_encode.parse_of_makes (hagrees _ _ _ (accept_membersWith ht))

theorem parse_encode_error (hm : o.receiveTimeout.reread = .error m) :
    ∃ e, shape.decode.parse (encode o.toJson) = .error e ∧ e.cause = .misfit m := by
  refine o.document_encode.parse_of_raises ?_
  exact Json.Record.raises_object agrees_slots refuses_slots _ (accept_membersWith_error hm)

/-- **Options come back from their text but for long timeouts.** Whatever the ids and limits are, they are
read as they were written.  A timeout below `2 ^ 23` seconds is so as well, and at any length it is if and
only if it is read of its own number of seconds.  Longer ones come back within one part in `2 ^ 50`.  The
last 1024 seconds are rounded up to a number that is refused as no span. -/
theorem options_return (o : Options) :
    let decoded := shape.decode.parse (encode o.toJson)
    let s := o.receiveTimeout
    (s.seconds < 0x800000 → decoded = .ok o) ∧
      (decoded = .ok o ↔ s.reread = .ok s) ∧
      (s.seconds < 0xfffffffffffffc00 → ∃ t, decoded = .ok { o with receiveTimeout := t } ∧
        |t.inSeconds - s.inSeconds| ≤ s.inSeconds / 2 ^ 50) ∧
      (0xfffffffffffffc00 ≤ s.seconds →
        ∃ e, decoded = .error e ∧ e.cause = .misfit .hugeSpan) := by
  intro decoded s
  refine ⟨fun h => parse_encode (Span.reread_of_lt h), ?_, fun h => ?_, fun h => ?_⟩
  · cases hreread : s.reread with
    | ok t =>
      rw [show decoded = _ from parse_encode hreread, Except.ok.injEq, Except.ok.injEq]
      exact ⟨fun hsame => congrArg receiveTimeout hsame, fun hsame => by rw [hsame]⟩
    | error m =>
      obtain ⟨e, he, -⟩ := parse_encode_error hreread
      rw [show decoded = _ from he]
      exact iff_of_false nofun nofun
  · obtain ⟨t, ht, hnear⟩ := Span.exists_reread h
    exact ⟨t, parse_encode ht, hnear⟩
  · exact parse_encode_error (Span.reread_of_le h)

/-- The last timeout below `2 ^ 23` seconds, with a text that needs escapes. -/
theorem options_return_below_limit :
    let o : Options :=
      { driverId := "run \"1\"", workerId := 7,
        receiveTimeout := ⟨8388607, 999999999, by decide, by decide⟩ }
    String.ofList o.toJson.chars = "\x7b\"driver_id\":\"run \\\"1\\\"\",\"worker_id\":7," ++
        "\"max_messages\":10,\"max_message_size\":8192,\"receive_timeout\":8388607.999999999," ++
        "\"max_idle_timeouts\":3\x7d" ∧
      shape.decode.parse (encode o.toJson) = .ok o := by
  intro o
  exact ⟨by decide +kernel, (options_return o).1 (by decide)⟩

/-- A nanosecond behind `2 ^ 23` seconds is read as two, and the longest timeout not at all. -/
theorem timeout_changes :
    let late : Options := { receiveTimeout := ⟨8388608, 1, by decide, by decide⟩ }
    let later : Options := { receiveTimeout := ⟨8388608, 2, by decide, by decide⟩ }
    let longest : Options :=
      { receiveTimeout := ⟨0xffffffffffffffff, 999999999, by decide, by decide⟩ }
    String.ofList late.receiveTimeout.toFloat.chars = "8388608.000000002" ∧
      shape.decode.parse (encode late.toJson) = .ok later ∧ later ≠ late ∧
      String.ofList longest.receiveTimeout.toFloat.chars = "1.8446744073709552e+19" ∧
      ∃ e, shape.decode.parse (encode longest.toJson) = .error e ∧ e.cause = .misfit .hugeSpan := by
  intro late later longest
  have hlate : late.receiveTimeout.reread = .ok later.receiveTimeout := by decide +kernel
  have hlongest : longest.receiveTimeout.reread = .error .hugeSpan := by decide +kernel
  exact ⟨by decide +kernel, parse_encode hlate, by decide, by decide +kernel,
    parse_encode_error hlongest⟩

end IndexFeed.Queue.Options
