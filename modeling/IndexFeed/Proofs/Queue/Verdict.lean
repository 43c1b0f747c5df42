import Mathlib.Control.Monad.Basic
import IndexFeed.Proofs.Json.TaggedTexts
import IndexFeed.Proofs.Queue.Fitting

/-!
# What an error says about a message

A message of another shape than the expected one is told from one that is no JSON.  Messages that
are JSON are told right: the kind of the error depends on the JSON value alone, not on its text.  One
sort of values is the exception, arrays with more items than the record has fields, whose rest is
taken for characters behind the text.

Nothing of the kind holds of messages that are no JSON.  Reading stops at the first misfit, and
whether JSON would have followed is never known.
-/

set_option autoImplicit false

namespace IndexFeed

open Json (Decoder Document Misfit Tagged)

variable {α : Type} {n : Nat} {j : Json} {m : Misfit}

/-! ## Commands -/

namespace CompileCommand

theorem refuses_slots : ∀ slot ∈ record.slots, ∀ s, (slot.shape s).Refuses := by
  have hlist := Json.Shape.refuses_text.list Json.Shape.agrees_text
  simp only [record, List.forall_mem_cons]
  refine ⟨?_, ?_, ?_, ?_, ?_, List.forall_mem_nil _⟩
  · exact fun s => Json.Shape.refuses_text.map
  · exact fun s => Json.Shape.refuses_text.map
  · exact fun s => hlist.map
  · exact fun s => Json.Shape.refuses_text.optional.map
  · exact fun s => Json.Shape.refuses_text.optional.map

theorem shape_raises (n : Nat) (hm : shape.accept j = .error m) :
    (¬Overlong j → shape.decode.Raises n j (.misfit m)) ∧
      (Overlong j → shape.decode.Raises n j .trailingCharacters) := by
  rw [← record_overlong_iff]
  exact Json.Record.raises agrees_slots refuses_slots (List.cons_ne_nil _ _) n hm

theorem not_overlong_of_accept {c : CompileCommand} (hc : shape.accept j = .ok c) : ¬Overlong j := by
  intro hlong
  obtain ⟨m, hm⟩ := (record_overlong_iff.2 hlong).refused
  cases hm.symm.trans hc

end CompileCommand

/-! ## Tasks -/

namespace Queue.Task

theorem makes_of_accept {t : Task} (hn : n ≤ Json.deepest) (h : accept j = .ok t) :
    decoder.Makes n j t := by
  obtain ⟨tagged, htagged, ht⟩ := bind_eq_ok_iff.1 h
  exact (Tagged.makes_of_ofJson hn htagged).refine ht

theorem raises_of_accept (hn : n ≤ Json.deepest) (h : accept j = .error m) :
    decoder.Raises n j (.misfit m) := by
  rcases bind_eq_error_iff.1 h with htagged | ⟨tagged, htagged, hunfit⟩
  · exact (Tagged.raises_of_ofJson hn htagged).refine
  · exact (Tagged.makes_of_ofJson hn htagged).refine_unfit hunfit

/-- A task comes from JSON only. -/
theorem document_of_parse {text : Bytes} {t : Task} (h : decoder.parse text = .ok t) :
    ∃ j, Document Json.deepest j text ∧ accept j = .ok t := by
  obtain ⟨c, hrun, hblanks⟩ := Json.Decoder.parse_eq_ok_iff.1 h
  obtain ⟨tagged, htagged, ht⟩ := Decoder.refine_eq_ok_iff.1 hrun
  obtain ⟨j, hj, hsays⟩ := Tagged.parse_eq_ok_iff.1 (Decoder.parse_eq_ok_iff.2 ⟨c, htagged, hblanks⟩)
  exact ⟨j, hj, bind_eq_ok_iff.2 ⟨tagged, hsays, ht⟩⟩

end Queue.Task

/-! ## Kinds of errors -/

namespace Queue.Store

variable {D : Decoder α} {message : Bytes} {a : α}

theorem decode_of_makes (hj : Document n j message) (h : D.Makes n j a) : decode D message = .ok a :=
  Database.decode_eq_ok_iff.2 (hj.parse_of_makes h)

/-- An error about shapes is about the misfit. -/
theorem decode_of_misfit (hj : Document n j message) (h : D.Raises n j (.misfit m)) :
    ∃ e : Json.Error, e.cause = .misfit m ∧
      decode D message = .error (.misshapen (pathInMessage e.path) e.message) := by
  obtain ⟨e, he, hcause⟩ := hj.parse_of_raises h
  have hcategory : e.category = .misshapen := by rw [Json.Error.category, hcause]; rfl
  exact ⟨e, hcause, by rw [decode, he]; simp only [hcategory]⟩

theorem decode_of_trailing (hj : Document n j message) (h : D.Raises n j .trailingCharacters) :
    ∃ e : Json.Error, e.cause = .trailingCharacters ∧ decode D message = .error (.notJson e) := by
  obtain ⟨e, he, hcause⟩ := hj.parse_of_raises h
  have hcategory : e.category = .malformed := by rw [Json.Error.category, hcause]; rfl
  exact ⟨e, hcause, by rw [decode, he]; simp only [hcategory]⟩

/-- What is received is the value that fits, or an error about shapes where none does.  Only where
`overlong` holds it is an error about JSON. -/
structure Tells (r : Except Error α) (fits : α → Prop) (overlong : Prop) : Prop where
  value : ∀ a, r = .ok a ↔ fits a
  misshapen : (∃ path text, r = .error (.misshapen path text)) ↔ (∀ a, ¬fits a) ∧ ¬overlong
  notJson : (∃ e, r = .error (.notJson e)) ↔ overlong

theorem tells_of_makes {accepted : Except Misfit α} {fits : α → Prop} {overlong : Prop}
    (hj : Document n j message) (hfits : ∀ a, accepted = .ok a ↔ fits a)
    (hmakes : ∀ a, accepted = .ok a → D.Makes n j a ∧ ¬overlong)
    (hmisfit : ∀ m, accepted = .error m →
      (¬overlong → D.Raises n j (.misfit m)) ∧ (overlong → D.Raises n j .trailingCharacters)) :
    Tells (decode D message) fits overlong := by
  cases accepted with
  | ok a =>
    obtain ⟨hmake, hshort⟩ := hmakes a rfl
    rw [decode_of_makes hj hmake]
    refine ⟨fun b => ?_, ⟨by simp, fun h => absurd ((hfits a).1 rfl) (h.1 a)⟩, by simpa using hshort⟩
    rw [← hfits b, Except.ok.injEq, Except.ok.injEq]
  | error m =>
    obtain ⟨hraise, hlong⟩ := hmisfit m rfl
    have hnone : ∀ a, ¬fits a := fun a ha => nomatch (hfits a).2 ha
    by_cases hoverlong : overlong
    · obtain ⟨e, -, he⟩ := decode_of_trailing hj (hlong hoverlong)
      rw [he]
      exact ⟨by simpa using hnone, by simp [hoverlong], by simp [hoverlong]⟩
    · obtain ⟨e, -, he⟩ := decode_of_misfit hj (hraise hoverlong)
      rw [he]
      exact ⟨by simpa using hnone, by simpa [hoverlong] using hnone, by simp [hoverlong]⟩

theorem decode_task_tells (hj : Document Json.deepest j message) :
    Tells (decode Task.decoder message) (fun t => t.Fits j) False :=
  tells_of_makes hj (fun _ => Task.accept_eq_ok_iff)
    (fun _ ht => ⟨Task.makes_of_accept (Nat.le_refl _) ht, id⟩)
    fun _ hm => ⟨fun _ => Task.raises_of_accept (Nat.le_refl _) hm, nofun⟩

theorem decode_command_tells (hj : Document Json.deepest j message) :
    Tells (decode CompileCommand.shape.decode message) (fun c => c.Fits j)
      (CompileCommand.Overlong j) :=
  tells_of_makes hj (fun _ => CompileCommand.accept_eq_ok_iff)
    (fun c hc => ⟨CompileCommand.agrees_shape _ j c hc, CompileCommand.not_overlong_of_accept hc⟩)
    fun _ => CompileCommand.shape_raises _

variable {s : Store} {h : Handle} {rest : List Bytes}

/-- **Of a message that is JSON the error tells right that it is**, with the exception of commands in
arrays that are too long.  A task comes from a message that is JSON only. -/
theorem receive_tells (hq : s.pending h.queue = message :: rest) (wait : Span) :
    (∀ j, Document Json.deepest j message →
      Tells (s.receive h Task.decoder wait).1 (fun t => t.Fits j) False ∧
        Tells (s.receive h CompileCommand.shape.decode wait).1 (fun c => c.Fits j)
          (CompileCommand.Overlong j)) ∧
      ∀ t, (s.receive h Task.decoder wait).1 = .ok t →
        ∃ j, Document Json.deepest j message ∧ t.Fits j := by
  rw [receive_of_cons hq, receive_of_cons hq]
  refine ⟨fun j hj => ⟨decode_task_tells hj, decode_command_tells hj⟩, fun t ht => ?_⟩
  obtain ⟨j, hj, haccept⟩ := Task.document_of_parse (Database.decode_eq_ok_iff.1 ht)
  exact ⟨j, hj, Task.accept_eq_ok_iff.1 haccept⟩

/-- An array with six items, five of which make a command. -/
theorem receive_tells_overlong :
    let message := Utf8.encodeChars "[\"d\",\"f\",[],null,null,0]".toList
    let s : Store := ⟨[⟨1, 64, [message]⟩], [("/commands", 0)]⟩
    let h : Handle := ⟨0, "/commands", .openOnly, 64⟩
    let j : Json := .array [.string "d", .string "f", .array [], .null, .null, .nat 0]
    s.pending h.queue = [message] ∧ Document Json.deepest j message ∧
      CompileCommand.Overlong j ∧
      Tells (s.receive h Task.decoder .zero).1 (fun t => t.Fits j) False ∧
      Tells (s.receive h CompileCommand.shape.decode .zero).1 (fun c => c.Fits j)
        (CompileCommand.Overlong j) := by
  intro message s h j
  have hq : s.pending h.queue = [message] := rfl
  have hj : Document Json.deepest j message := Json.parse_value_eq_ok_iff.1 (by decide +kernel)
  have hfits : CompileCommand.shape.accept (.array [.string "d", .string "f", .array [], .null, .null]) =
      .ok ⟨"d", "f", [], none, none⟩ := rfl
  have hlong : CompileCommand.Overlong j :=
    ⟨_, _, rfl, by decide, CompileCommand.accept_eq_ok_iff.1 hfits⟩
  obtain ⟨htask, hcommand⟩ := (receive_tells hq .zero).1 j hj
  exact ⟨hq, hj, hlong, htask, hcommand⟩

/-- A text that opens with a brace has one that closes. -/
theorem mem_of_document {q : Bytes} (h : Document n j (Octet.openBrace :: q)) :
    Octet.closeBrace ∈ q := by
  obtain ⟨a, p, b, ha, hp, -, htext⟩ := h
  obtain ⟨x, r, rfl, -⟩ := hp.head
  cases a with
  | nil =>
    obtain ⟨rfl, rfl⟩ := List.cons.inj htext
    obtain ⟨ms, rfl⟩ := hp.begins.of_openBrace
    generalize hx : Octet.openBrace :: r = p at hp
    cases hp with
    | emptyObject | object =>
      obtain ⟨-, rfl⟩ := List.cons.inj hx
      simp
  | cons y a =>
    obtain ⟨rfl, -⟩ := List.cons.inj htext
    exact absurd (ha _ List.mem_cons_self) (by decide)

/-- The exception comes about, and a message that breaks off behind a misfit is taken for JSON. -/
theorem kind_misleads :
    let long := Utf8.encodeChars "[\"d\",\"f\",[],null,null,0]".toList
    let torn := Utf8.encodeChars "\x7b\"directory\":1".toList
    let tornTask := Utf8.encodeChars "\x7b\"type\":1".toList
    ((∃ n j, Document n j long) ∧
        ∃ e, decode CompileCommand.shape.decode long = .error (.notJson e)) ∧
      ((¬∃ n j, Document n j torn) ∧ decode CompileCommand.shape.decode torn =
        .error (.misshapen "ipc-message.directory"
          "invalid type: integer `1`, expected a string at line 1 column 14")) ∧
      (¬∃ n j, Document n j tornTask) ∧ decode Task.decoder tornTask =
        .error (.misshapen "ipc-message.type"
          "invalid type: integer `1`, expected variant identifier at line 1 column 9") := by
  intro long torn tornTask
  refine ⟨⟨?_, ?_⟩, ⟨?_, by decide +kernel⟩, ?_, by decide +kernel⟩
  · exact ⟨Json.deepest, .array [.string "d", .string "f", .array [], .null, .null, .nat 0],
      Json.parse_value_eq_ok_iff.1 (by decide +kernel)⟩
  · exact ⟨⟨.trailingCharacters, some ⟨1, 23⟩, []⟩, by decide +kernel⟩
  · rintro ⟨n, j, hj⟩
    exact absurd (mem_of_document hj) (by decide)
  · rintro ⟨n, j, hj⟩
    exact absurd (mem_of_document hj) (by decide)

end Queue.Store

end IndexFeed
