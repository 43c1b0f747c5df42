import IndexFeed.Proofs.Json.RecordFields
import IndexFeed.Proofs.Json.Misfitting
import IndexFeed.Proofs.Queue.RoundTrip

/-!
# Which values are commands

A JSON value is a command if it gives its fields: as an object by their names, with other members beside
them, or as an array in their order.  The directory and the source file must be there.  Of the others,
what is not given is empty, and null is as good as nothing for the two that are texts.
-/

set_option autoImplicit false

namespace IndexFeed

open Json (Record Shape Slot)

variable {j : Json} {o : Option Json}

/-! ## Texts and lists of texts -/

namespace Json

theorem accept_text_eq_ok_iff {s : String} : Shape.text.accept j = .ok s ↔ j = .string s := by
  constructor
  · intro h
    cases j with
    | string s' =>
      cases h
      rfl
    | null | bool | number | array | object => cases h
  · rintro rfl
    rfl

theorem accept_list_eq_ok_iff {ss : List String} :
    Shape.text.list.accept j = .ok ss ↔ j = .array (ss.map Json.string) := by
  constructor
  · intro h
    cases j with
    | array js =>
      have hall : js.mapM Shape.text.accept = .ok ss := h
      refine congrArg Json.array ?_
      clear h
      induction js generalizing ss with
      | nil =>
        cases hall
        rfl
      | cons j js ih =>
        obtain ⟨s, ss', hs, hss, rfl⟩ := mapM_cons_eq_ok_iff.1 hall
        rw [ih hss, accept_text_eq_ok_iff.1 hs, List.map_cons]
    | null | bool | number | string | object => cases h
  · rintro rfl
    exact CompileCommand.mapM_accept_text ss

/-- A text, or null where there is none. -/
def textOrNull (s : Option String) : Json := (s.map Json.string).getD .null

theorem accept_optional_eq_ok_iff {s : Option String} :
    Shape.text.optional.accept j = .ok s ↔ j = textOrNull s := by
  constructor
  · intro h
    cases j with
    | null =>
      cases h
      rfl
    | string s' =>
      cases h
      rfl
    | bool | number | array | object => cases h
  · rintro rfl
    cases s <;> rfl

/-! ## Fields that hold them -/

theorem fills_text {s : String} {v : Option String} (h : Shape.text.Fills o v) :
    o = some (.string s) ↔ v = some s := by
  cases o with
  | none =>
    cases h
    exact ⟨nofun, nofun⟩
  | some j =>
    obtain ⟨s', hs', rfl⟩ := h
    rw [accept_text_eq_ok_iff.1 hs', Option.some.injEq, Option.some.injEq, Json.string.injEq]

/-- Nothing is as good as no texts. -/
theorem fills_list {ss : List String} {v : Option (List String)} (h : Shape.text.list.Fills o v) :
    o.getD (.array []) = .array (ss.map Json.string) ↔ v.getD [] = ss := by
  have hstrings : ∀ ts ss : List String,
      Json.array (ts.map Json.string) = .array (ss.map Json.string) ↔ ts = ss := by
    intro ts ss
    rw [Json.array.injEq, List.map_inj_right fun _ _ => Json.string.inj]
  cases o with
  | none =>
    cases h
    exact hstrings [] ss
  | some j =>
    obtain ⟨ts, hts, rfl⟩ := h
    rw [accept_list_eq_ok_iff.1 hts]
    exact hstrings ts ss

/-- Nothing is as good as null. -/
theorem fills_optional {s : Option String} {v : Option (Option String)}
    (h : Shape.text.optional.Fills o v) : o.getD .null = textOrNull s ↔ v.getD none = s := by
  have htexts : ∀ t s : Option String, textOrNull t = textOrNull s ↔ t = s := by
    intro t s
    cases t <;> cases s <;> simp [textOrNull]
  cases o with
  | none =>
    cases h
    exact htexts none s
  | some j =>
    obtain ⟨t, ht, rfl⟩ := h
    rw [accept_optional_eq_ok_iff.1 ht]
    exact htexts t s

end Json

/-! ## Commands -/

namespace CompileCommand

/-- The value gives the fields of the command. -/
structure Fits (c : CompileCommand) (j : Json) : Prop where
  directory : j.Gives 0 "directory" (some (.string c.directory))
  file : j.Gives 1 "file" (some (.string c.file))
  /-- what is not given has no words -/
  arguments : ∃ o, j.Gives 2 "arguments" o ∧ o.getD (.array []) = .array (c.arguments.map .string)
  /-- what is not given is null -/
  command : ∃ o, j.Gives 3 "command" o ∧ o.getD .null = Json.textOrNull c.command
  output : ∃ o, j.Gives 4 "output" o ∧ o.getD .null = Json.textOrNull c.output
  /-- nothing is left over -/
  length : ∀ js, j = .array js → js.length ≤ 5

variable {c : CompileCommand} {f : Fields}

/-! ### The record -/

theorem field_directory : record.Field 0 "directory" Fields.directory .text where
  slot := ⟨_, rfl, fun _ _ => rfl⟩
  others := by simp [record, Slot.leaves_of]
  start := rfl

theorem field_file : record.Field 1 "file" Fields.file .text where
  slot := ⟨_, rfl, fun _ _ => rfl⟩
  others := by simp [record, Slot.leaves_of]
  start := rfl

theorem field_arguments : record.Field 2 "arguments" Fields.arguments (.list .text) where
  slot := ⟨_, rfl, fun _ _ => rfl⟩
  others := by simp [record, Slot.leaves_of]
  start := rfl

theorem field_command : record.Field 3 "command" Fields.command (.optional .text) where
  slot := ⟨_, rfl, fun _ _ => rfl⟩
  others := by simp [record, Slot.leaves_of]
  start := rfl

theorem field_output : record.Field 4 "output" Fields.output (.optional .text) where
  slot := ⟨_, rfl, fun _ _ => rfl⟩
  others := by simp [record, Slot.leaves_of]
  start := rfl

/-- Each slot is a field on its own. -/
theorem separate : record.Separate := by
  intro i hi
  match i, hi with
  | 0, _ => exact ⟨_, _, _, _, field_directory⟩
  | 1, _ => exact ⟨_, _, _, _, field_file⟩
  | 2, _ => exact ⟨_, _, _, _, field_arguments⟩
  | 3, _ => exact ⟨_, _, _, _, field_command⟩
  | 4, _ => exact ⟨_, _, _, _, field_output⟩
  | i + 5, hi => exact absurd hi (Nat.not_lt_of_le (Nat.le_add_left 5 i))

/-! ### Fields that make a command -/

/-- The fields are those of the command. -/
def Fields.Make (f : Fields) (c : CompileCommand) : Prop :=
  ∃ directory file, f.directory = some directory ∧ f.file = some file ∧ f.build directory file = c

theorem accept_eq_ok_iff_make : shape.accept j = .ok c ↔ ∃ f, record.gather j = .ok f ∧ f.Make c ∧
    ∀ js, j = .array js → js.length ≤ 5 :=
  Record.accept_eq_ok_iff
    (fun _ => Record.bind_needs_eq_ok_iff (fun _ => Record.need_eq_ok_iff)
      fun _ => Record.need_eq_ok_iff)
    fun _ _ => Record.bind_needs_eq_ok_iff (fun _ => Record.needItem_eq_ok_iff)
      fun _ => Record.needItem_eq_ok_iff

/-- The fields that a value fills are those of the command that it fits. -/
theorem Fits.make (h : c.Fits j) (hf : record.gather j = .ok f) : f.Make c := by
  obtain ⟨arguments, harguments, hgiven⟩ := h.arguments
  obtain ⟨command, hcommand, hcommand'⟩ := h.command
  obtain ⟨output, houtput, houtput'⟩ := h.output
  refine ⟨c.directory, c.file, ?_, ?_, ?_⟩
  · exact (Json.fills_text (field_directory.fills_of_gives hf h.directory)).1 rfl
  · exact (Json.fills_text (field_file.fills_of_gives hf h.file)).1 rfl
  · rw [Fields.build, (Json.fills_list (field_arguments.fills_of_gives hf harguments)).1 hgiven,
      (Json.fills_optional (field_command.fills_of_gives hf hcommand)).1 hcommand',
      (Json.fills_optional (field_output.fills_of_gives hf houtput)).1 houtput']

/-- What fits fills all fields. -/
theorem Fits.exists_gather (h : c.Fits j) : ∃ f, record.gather j = .ok f := by
  refine separate.exists_gather (List.cons_ne_nil _ _) fun i slot hslot => ?_
  match i, hslot with
  | 0, rfl =>
    refine ⟨_, h.directory, ?_⟩
    rintro _ ⟨⟩
    exact Record.takes_of (Json.accept_text_eq_ok_iff.2 rfl)
  | 1, rfl =>
    refine ⟨_, h.file, ?_⟩
    rintro _ ⟨⟩
    exact Record.takes_of (Json.accept_text_eq_ok_iff.2 rfl)
  | 2, rfl =>
    obtain ⟨o, ho, hgiven⟩ := h.arguments
    refine ⟨o, ho, ?_⟩
    rintro k rfl
    exact Record.takes_of (Json.accept_list_eq_ok_iff.2 hgiven)
  | 3, rfl =>
    obtain ⟨o, ho, hgiven⟩ := h.command
    refine ⟨o, ho, ?_⟩
    rintro k rfl
    exact Record.takes_of (Json.accept_optional_eq_ok_iff.2 hgiven)
  | 4, rfl =>
    obtain ⟨o, ho, hgiven⟩ := h.output
    refine ⟨o, ho, ?_⟩
    rintro k rfl
    exact Record.takes_of (Json.accept_optional_eq_ok_iff.2 hgiven)

/-- **A command is accepted from the values that give its fields**, and from no others. -/
theorem accept_eq_ok_iff : shape.accept j = .ok c ↔ c.Fits j := by
  rw [accept_eq_ok_iff_make]
  constructor
  · rintro ⟨f, hf, ⟨directory, file, hdirectory, hfile, rfl⟩, hlength⟩
    obtain ⟨o₀, ho₀, hfills₀⟩ := field_directory.fills hf
    obtain ⟨o₁, ho₁, hfills₁⟩ := field_file.fills hf
    obtain ⟨o₂, ho₂, hfills₂⟩ := field_arguments.fills hf
    obtain ⟨o₃, ho₃, hfills₃⟩ := field_command.fills hf
    obtain ⟨o₄, ho₄, hfills₄⟩ := field_output.fills hf
    rw [(Json.fills_text hfills₀).2 hdirectory] at ho₀
    rw [(Json.fills_text hfills₁).2 hfile] at ho₁
    exact ⟨ho₀, ho₁, ⟨o₂, ho₂, (Json.fills_list hfills₂).2 rfl⟩,
      ⟨o₃, ho₃, (Json.fills_optional hfills₃).2 rfl⟩,
      ⟨o₄, ho₄, (Json.fills_optional hfills₄).2 rfl⟩, hlength⟩
  · intro h
    obtain ⟨f, hf⟩ := h.exists_gather
    exact ⟨f, hf, h.make hf, h.length⟩

/-! ### Arrays that go on -/

/-- The value is an array that begins as a command but has more items than a command has fields. -/
def Overlong (j : Json) : Prop :=
  ∃ js c, j = .array js ∧ 5 < js.length ∧ Fits c (.array (js.take 5))

theorem exists_of_fills_text {k : Json} {v : Option String} (h : Shape.text.Fills (some k) v) :
    ∃ s, v = some s := by
  obtain ⟨s, -, hs⟩ := h
  exact ⟨s, hs⟩

/-- Five items that are taken make a command. -/
theorem exists_fits_of_items {js : List Json} (hlength : js.length = 5)
    (hf : record.gather (.array js) = .ok f) : ∃ c : CompileCommand, c.Fits (.array js) := by
  have hdirectory := field_directory.fills_of_gives hf (List.getElem?_eq_getElem (by omega))
  have hfile := field_file.fills_of_gives hf (List.getElem?_eq_getElem (by omega))
  obtain ⟨directory, hdirectory⟩ := exists_of_fills_text hdirectory
  obtain ⟨file, hfile⟩ := exists_of_fills_text hfile
  refine ⟨f.build directory file, accept_eq_ok_iff.1 (accept_eq_ok_iff_make.2 ⟨f, hf, ?_, ?_⟩)⟩
  · exact ⟨directory, file, hdirectory, hfile, rfl⟩
  · rintro _ ⟨⟩
    exact Nat.le_of_eq hlength

theorem record_overlong_iff : record.Overlong j ↔ Overlong j := by
  constructor
  · rintro ⟨js, f, rfl, hlong, hf⟩
    rw [← Record.acceptItems_take] at hf
    obtain ⟨c, hc⟩ := exists_fits_of_items (List.length_take_of_le (Nat.le_of_lt hlong)) hf
    exact ⟨js, c, rfl, hlong, hc⟩
  · rintro ⟨js, c, rfl, hlong, hc⟩
    obtain ⟨f, hf⟩ := hc.exists_gather
    exact ⟨js, f, rfl, hlong, (Record.acceptItems_take _ _ js).symm.trans hf⟩

end CompileCommand

end IndexFeed
