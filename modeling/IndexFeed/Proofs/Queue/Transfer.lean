import IndexFeed.Proofs.Database.Selection
import IndexFeed.Proofs.Queue.Verdict

/-!
# Records of a database in messages

Two decoders make a command of an object.  In a database a collector goes through the members one by one,
with the last value of each key; in a message the shape of commands takes them, which complains of a
repeated field but allows what the collector does not, such as null for a command, or no invocation at
all.  Where no field is repeated, the shape makes of every object that the collector takes the same command
(`element_decodes`).
-/

set_option autoImplicit false

namespace IndexFeed

open Json (Cursor Decoder Object Tagged Written deepest normalMembers valuesOf)

variable {ms : Object} {c : CompileCommand} {p q : Bytes}

/-! ## Keys that are not repeated -/

namespace Json

/-- Two objects at the head of one text are the same. -/
theorem Written.object_unique {m n : Nat} {ms' : Object} {p' q' : Bytes}
    (h : Written m (.value (.object ms)) p) (h' : Written n (.value (.object ms')) p')
    (htext : p ++ q = p' ++ q') : p = p' ∧ ms = ms' := by
  have ht : (Cursor.start (p ++ q)).Takes p ⟨p.length, q⟩ := ⟨rfl, (Nat.zero_add _).symm⟩
  have ht' : (Cursor.start (p ++ q)).Takes p' ⟨p'.length, q'⟩ := ⟨htext, (Nat.zero_add _).symm⟩
  have hread := membersAround_complete (h.mono (Nat.le_succ_of_le (Nat.le_max_left m n))) ht
  have hread' := membersAround_complete (h'.mono (Nat.le_succ_of_le (Nat.le_max_right m n))) ht'
  obtain ⟨hmembers, hstop⟩ := Prod.mk.inj (Except.ok.inj (hread.symm.trans hread'))
  have hlength : p.length = p'.length := congrArg Cursor.index hstop
  exact ⟨(List.append_inj htext hlength).1, hmembers⟩

theorem getLast?_valuesOf (ms : Object) (key : String) :
    (valuesOf ms key).getLast? = ms.last? key := by
  induction ms with
  | nil => rfl
  | cons m ms ih =>
    obtain ⟨k, j⟩ := m
    rw [Object.last?_cons, Object.get?_cons, ← ih]
    by_cases hkey : key = k
    · rw [hkey, valuesOf_cons_self, if_pos rfl, List.getLast?_cons]
      cases (valuesOf ms k).getLast? <;> rfl
    · rw [valuesOf_cons_of_ne (Ne.symm hkey), if_neg hkey, Object.get?_nil, Option.or_none]

/-- A key that is not repeated has its last value and no other. -/
theorem gives_last? {key : String} (h : (valuesOf ms key).length ≤ 1) (i : Nat) :
    (Json.object ms).Gives i key (ms.last? key) := by
  show valuesOf ms key = (ms.last? key).toList
  rw [← getLast?_valuesOf]
  match valuesOf ms key, h with
  | [], _ => rfl
  | [j], _ => rfl
  | j :: k :: js, h => exact absurd (Nat.le_of_succ_le_succ h) (Nat.not_succ_le_zero _)

end Json

/-- No key of a field is there twice. -/
def FieldsOnce (ms : Object) : Prop := ∀ f : Field, f ≠ .unset → (valuesOf ms f.key).length ≤ 1

/-- A command that carries the last values of keys that are not repeated fits the object. -/
theorem CompileCommand.Carries.fits (h : c.Carries ms.last?) (honce : FieldsOnce ms) :
    c.Fits (.object ms) := by
  constructor
  · rw [← h.directory]
    exact Json.gives_last? (honce .directory (by decide)) 0
  · rw [← h.file]
    exact Json.gives_last? (honce .file (by decide)) 1
  · refine ⟨_, Json.gives_last? (honce .arguments (by decide)) 2, ?_⟩
    show (ms.last? "arguments").getD (.array []) = _
    rw [h.arguments]
    split
    · next hnil => simp [hnil]
    · simp
  · refine ⟨_, Json.gives_last? (honce .command (by decide)) 3, ?_⟩
    show (ms.last? "command").getD .null = _
    rw [h.command, Json.textOrNull]
  · refine ⟨_, Json.gives_last? (honce .output (by decide)) 4, ?_⟩
    show (ms.last? "output").getD .null = _
    rw [Json.textOrNull, ← h.output]
    -- null counts as no output, whether it is written or not
    cases ms.last? "output" with
    | none => simp
    | some j => by_cases hnull : j = .null <;> simp [hnull, Option.filter]
  · intro js hjs
    cases hjs

/-- What fits an object is given each field once. -/
theorem CompileCommand.Fits.fieldsOnce (h : c.Fits (.object ms)) : FieldsOnce ms := by
  have hlength : ∀ {i : Nat} {key : String} {o : Option Json}, (Json.object ms).Gives i key o →
      (valuesOf ms key).length ≤ 1 := by
    intro i key o ho
    rw [show valuesOf ms key = o.toList from ho]
    exact Option.length_toList_le
  intro f hf
  cases f with
  | unset => exact absurd rfl hf
  | directory => exact hlength h.directory
  | file => exact hlength h.file
  | arguments => exact hlength h.arguments.choose_spec.1
  | command => exact hlength h.command.choose_spec.1
  | output => exact hlength h.output.choose_spec.1

/-! ## Objects that are collected -/

namespace Database

open Queue

/-- The reader takes an object where it stands, and the collector makes the command of it. -/
def Reader.Collects (r : Reader) (c : Collector) (command : CompileCommand) : Prop :=
  ∃ (r' : Reader) (c' : Collector), c'.commands = c.commands ++ [command] ∧
    (r.readElement Collector.handler c = .proceed r' c' ∨
      r.readElement Collector.handler c = .halt r' c')

variable {n : Nat} {r : Reader} {collector : Collector} {command : CompileCommand}

/-- An object is collected if the decoder of elements reads it and it is a record. -/
theorem Reader.collects_iff : r.Collects collector command ↔
    ∃ o stop, Decoder.element.run (.start r.source.rest) = .ok (o, stop) ∧
      CompileCommand.ofObject? o = some command := by
  constructor
  · rintro ⟨r', c', hcommands, hread⟩
    unfold Reader.readElement at hread
    split at hread
    · next o stop hrun =>
      refine ⟨o, stop, hrun, ?_⟩
      have hc : c' = collector.take o := by
        dsimp only [Collector.handler] at hread
        split at hread <;> rcases hread with hstep | hstep <;> cases hstep <;> rfl
      have hone : [command] = Collector.wellFormed [o] := by
        rw [hc, Collector.commands_take] at hcommands
        exact (List.append_cancel_left hcommands).symm
      cases ho : CompileCommand.ofObject? o with
      | none => simp [Collector.wellFormed, ho] at hone
      | some command' => simpa [Collector.wellFormed, ho, eq_comm] using hone
    · rcases hread with hstep | hstep <;> cases hstep
  · rintro ⟨o, stop, hrun, ho⟩
    refine ⟨{ r with source := r.source.readThrough stop.index, expect := .nextElement },
      collector.take o, ?_, ?_⟩
    · rw [Collector.commands_take, Collector.wellFormed, List.filterMap_cons_some ho,
        List.filterMap_nil]
    · unfold Reader.readElement
      rw [hrun]
      dsimp only [Collector.handler]
      split
      · exact .inl rfl
      · exact .inr rfl

/-- What is collected of an object is the command that carries its last values. -/
theorem Reader.Collects.carries (h : r.Collects collector command)
    (hp : Written n (.value (.object ms)) p) (hr : r.source.rest = p ++ q) :
    Written deepest (.value (.object ms)) p ∧ command.Carries ms.last? := by
  obtain ⟨o, stop, hrun, ho⟩ := Reader.collects_iff.1 h
  obtain ⟨ms', hmembers, rfl⟩ := Decoder.map_eq_ok_iff.1 hrun
  obtain ⟨x, rest, rfl, -⟩ := hp.head
  obtain ⟨rfl, -⟩ := hp.object_head
  obtain ⟨p', ht, hp'⟩ := Json.membersAround_sound (Json.value_sound _) hr hmembers
  obtain ⟨rfl, rfl⟩ := hp.object_unique hp' (hr.symm.trans ht.1)
  refine ⟨hp', ?_⟩
  have hspec := CompileCommand.ofObject?_spec (Json.ascends_normalMembers ms).nodup
  have hrecord : IsRecord (Object.get? (normalMembers ms)) :=
    Classical.byContradiction fun hno => nomatch ho.symm.trans (hspec.2 hno)
  obtain ⟨command', ho', hcarries⟩ := hspec.1 hrecord
  obtain rfl := Option.some.inj (ho.symm.trans ho')
  rw [show Object.get? (normalMembers ms) = _ from funext (Json.get?_normalMembers ms)] at hcarries
  exact CompileCommand.carries_normal_iff.1 hcarries

/-- The shape takes what is collected, unless a field is repeated. -/
theorem Reader.Collects.decode_eq_ok_iff (h : r.Collects collector command)
    (hp : Written n (.value (.object ms)) p) (hr : r.source.rest = p ++ q) :
    Store.decode CompileCommand.shape.decode p = .ok command ↔ FieldsOnce ms := by
  obtain ⟨hwritten, hcarries⟩ := h.carries hp hr
  have hj : Json.Document deepest (.object ms) p :=
    ⟨[], p, [], List.forall_mem_nil _, hwritten, List.forall_mem_nil _, (List.append_nil p).symm⟩
  rw [(Store.decode_command_tells hj).value command]
  exact ⟨CompileCommand.Fits.fieldsOnce, hcarries.fits⟩

/-- **What a collector takes of a database, messages say as well.** An object without a repeated field
that is collected as an element of a database is decoded by the shape of commands to the same command: on
its own, and in every task, however it is written, that gives the object for its command. -/
theorem element_decodes (hp : Written n (.value (.object ms)) p) (honce : FieldsOnce ms)
    (hr : r.source.rest = p ++ q) (h : r.Collects collector command) :
    Store.decode CompileCommand.shape.decode p = .ok command ∧
      ∀ (message : Bytes) (j body : Json) (jobId : UInt64), Json.Document deepest j message →
        Tagged.Says "index" body j → body.Gives 0 "job_id" (some (.nat jobId.toNat)) →
        body.Gives 1 "command" (some (.object ms)) → (∀ js, body = .array js → js.length ≤ 2) →
        Store.decode Task.decoder message = .ok (.index jobId command) := by
  have hfits := (h.carries hp hr).2.fits honce
  refine ⟨(h.decode_eq_ok_iff hp hr).2 honce, ?_⟩
  intro message j body jobId hj hsays hjobId hcommand hlength
  have htask : Task.Fits (.index jobId command) j :=
    ⟨body, hsays, hjobId, ⟨_, hcommand, hfits⟩, hlength⟩
  exact ((Store.decode_task_tells hj).value _).2 htask

/-- An object with a member that is no field and with null for its output. -/
def withoutOutput : Object :=
  [("file", .string "a.c"), ("extra", .array [.null]), ("command", .string "cc a.c"),
    ("output", .null), ("directory", .string "/w")]

/-- The first object of a database, in a task to index it. -/
theorem element_decodes_withoutOutput :
    let p := Store.encode (.object withoutOutput)
    let j := Json.object [("type", .string "index"), ("job_id", .nat 7),
      ("command", .object withoutOutput)]
    let r : Reader := { source := .ofBytes (p ++ [Octet.closeBracket]) 16, expect := .firstElement }
    let command : CompileCommand := ⟨"/w", "a.c", [], some "cc a.c", none⟩
    Written 2 (.value (.object withoutOutput)) p ∧ FieldsOnce withoutOutput ∧
      r.Collects { limit := none } command ∧ Json.Document deepest j (Store.encode j) ∧
      Store.decode CompileCommand.shape.decode p = .ok command ∧
      Store.decode Task.decoder (Store.encode j) = .ok (.index 7 command) := by
  intro p j r command
  have hp : Written 2 (.value (.object withoutOutput)) p :=
    Json.written_chars (f := id) (.object withoutOutput) fun x hx => absurd hx List.not_mem_nil
  have honce : FieldsOnce withoutOutput := by
    intro f hf
    cases f with
    | unset => exact absurd rfl hf
    | directory | file | arguments | command | output => simp [withoutOutput, valuesOf, Field.key]
  have hcollects : r.Collects { limit := none } command := by
    refine Reader.collects_iff.2 ⟨normalMembers withoutOutput, ⟨p.length, [Octet.closeBracket]⟩, ?_⟩
    decide +kernel
  have hj : Json.Document deepest j (Store.encode j) :=
    Json.parse_value_eq_ok_iff.1 (by decide +kernel)
  obtain ⟨hcommand, htask⟩ := element_decodes hp honce rfl hcollects
  refine ⟨hp, honce, hcollects, hj, hcommand, htask _ j _ 7 hj ⟨rfl, rfl⟩ rfl rfl ?_⟩
  intro js hjs
  cases hjs

end Database

end IndexFeed
