import Mathlib.Data.List.Induction
import Mathlib.Data.Nat.Bitwise
import IndexFeed.Proofs.Command.Members
import IndexFeed.Proofs.Json.LastOfKeys

/-!
# Which objects are records

An object is a record if the values of its keys are of the right types and one of the two forms of
the invocation is there.  A draft, which sees the members one by one, comes to the same: behind an
object whose keys are distinct it has seen the fields that the object has, it is malformed if a field
has a value of a wrong type, and otherwise it shows the values of all fields (`Draft.gathers_ofObject`).
The order of the members makes no difference.
-/

set_option autoImplicit false

namespace IndexFeed

open Json (Object normal normalItems)

/-- The values of the keys make a record. -/
structure IsRecord (value : String → Option Json) : Prop where
  directory : ∃ s, value "directory" = some (.string s)
  file : ∃ s, value "file" = some (.string s)
  /-- exactly one form of the invocation is there -/
  oneForm : ((value "arguments").isSome ↔ ¬(value "command").isSome)
  arguments : ∀ j, value "arguments" = some j →
    ∃ ss : List String, ss ≠ [] ∧ j = .array (ss.map Json.string)
  command : ∀ j, value "command" = some j → ∃ s, j = .string s
  output : ∀ j, value "output" = some j → j = .null ∨ ∃ s, j = .string s

/-- A command carries the values of the keys, and nothing where a key is missing or null. -/
structure CompileCommand.Carries (c : CompileCommand) (value : String → Option Json) : Prop where
  directory : value "directory" = some (.string c.directory)
  file : value "file" = some (.string c.file)
  arguments : value "arguments" =
    if c.arguments = [] then none else some (.array (c.arguments.map Json.string))
  command : value "command" = c.command.map Json.string
  output : (value "output").filter (· ≠ .null) = c.output.map Json.string

/-! ## Fields -/

namespace Field

/-- The key of a field. -/
def key : Field → String
  | .unset => ""
  | .directory => "directory"
  | .file => "file"
  | .arguments => "arguments"
  | .command => "command"
  | .output => "output"

theorem ofKey_eq_iff {f : Field} (hf : f ≠ .unset) {k : String} : ofKey k = f ↔ k = f.key := by
  unfold ofKey
  constructor
  · rintro rfl
    split_ifs at hf ⊢ <;> first | assumption | exact absurd rfl hf
  · rintro rfl
    cases f with
    | unset => exact absurd rfl hf
    | directory => rfl
    | file => rfl
    | arguments => rfl
    | command => rfl
    | output => rfl

/-- A command shows the value of a field, or that the field has none. -/
def Shows (c : CompileCommand) (value : Option Json) : Field → Prop
  | .unset => True
  | .directory => value.elim (c.directory = "") (· = .string c.directory)
  | .file => value.elim (c.file = "") (· = .string c.file)
  | .arguments => value.elim (c.arguments = []) (· = .array (c.arguments.map Json.string))
  | .command => value = c.command.map Json.string
  | .output => value.filter (· ≠ .null) = c.output.map Json.string

theorem shows_fresh (f : Field) : f.Shows { directory := "", file := "" } none := by
  cases f with
  | unset => trivial
  | directory => rfl
  | file => rfl
  | arguments => rfl
  | command => rfl
  | output => rfl

end Field

namespace Draft

/-! ## Texts -/

/-- The items read as texts are exactly texts. -/
theorem texts?_eq_some_iff {js : List Json} {ss : List String} :
    texts? js = some ss ↔ js = ss.map Json.string := by
  constructor
  · intro h
    fun_induction texts? js generalizing ss with
    | case1 =>
      cases h
      rfl
    | case2 s r ih =>
      obtain ⟨rest, hrest, rfl⟩ := Option.map_eq_some_iff.1 h
      rw [ih hrest, List.map_cons]
    | case3 => cases h
  · rintro rfl
    exact texts?_strings ss

/-! ## Filling a field -/

/-- A value that fits the field is shown, and one that does not makes the draft malformed. -/
theorem fill_cases (d : Draft) (f : Field) (j : Json) :
    (d.fill f j).malformed = d.malformed ∧ f.Shows (d.fill f j).command (some j) ∨
      (d.fill f j).malformed = true ∧ ∀ c, ¬f.Shows c (some j) := by
  unfold fill
  split
  · exact .inl ⟨rfl, trivial⟩
  · exact .inl ⟨rfl, rfl⟩
  · exact .inl ⟨rfl, rfl⟩
  · exact .inl ⟨rfl, rfl⟩
  · exact .inl ⟨rfl, Option.filter_some_pos (by simp)⟩
  · exact .inl ⟨rfl, Option.filter_some_neg (by simp)⟩
  · split
    · next ss hss => exact .inl ⟨rfl, congrArg Json.array (texts?_eq_some_iff.1 hss)⟩
    · next hnone =>
      refine .inr ⟨rfl, fun c hc => ?_⟩
      rw [texts?_eq_some_iff.2 (Json.array.inj hc)] at hnone
      cases hnone
  · next hunset hdirectory hfile hcommand houtput hnull harguments =>
    refine .inr ⟨rfl, fun c hc => ?_⟩
    cases f with
    | unset => exact hunset rfl
    | directory => exact hdirectory _ rfl hc
    | file => exact hfile _ rfl hc
    | arguments => exact harguments _ rfl hc
    | command =>
      obtain ⟨s, -, hs⟩ := Option.map_eq_some_iff.1 (Eq.symm hc)
      exact hcommand s rfl hs.symm
    | output =>
      rw [Field.Shows, Option.filter_some_pos (by simpa using hnull rfl)] at hc
      obtain ⟨s, -, hs⟩ := Option.map_eq_some_iff.1 hc.symm
      exact houtput s rfl hs.symm

/-- Filling a field leaves what the others show. -/
theorem shows_fill_of_ne (d : Draft) {f g : Field} (h : g ≠ f) (j : Json) (v : Option Json) :
    g.Shows (d.fill f j).command v ↔ g.Shows d.command v := by
  unfold fill
  split
  case h_7 =>
    split
    · cases g <;> first | exact absurd rfl h | exact Iff.rfl
    · exact Iff.rfl
  all_goals cases g <;> first | exact absurd rfl h | exact Iff.rfl

/-! ## Fields that a mask shows -/

/-- A mask has all of a field's bit or nothing of it. -/
theorem and_bit (mask : UInt32) (f : Field) : mask &&& f.bit = 0 ∨ mask &&& f.bit = f.bit := by
  have hpower : ∀ i, mask.toNat &&& 2 ^ i = 0 ∨ mask.toNat &&& 2 ^ i = 2 ^ i := by
    intro i
    rw [Nat.and_two_pow]
    cases mask.toNat.testBit i
    · exact .inl (Nat.zero_mul _)
    · exact .inr (Nat.one_mul _)
  rw [← UInt32.toNat_inj, ← UInt32.toNat_inj, UInt32.toNat_and]
  cases f with
  | unset => exact .inl (Nat.and_zero _)
  | directory => exact hpower 1
  | file => exact hpower 2
  | arguments => exact hpower 3
  | command => exact hpower 4
  | output => exact hpower 5

variable {d : Draft}

theorem seen_and_bit (d : Draft) (f : Field) [Decidable (d.Sees f)] :
    d.seen &&& f.bit = if d.Sees f then f.bit else 0 := by
  split
  · next h => exact (and_bit d.seen f).resolve_left h
  · next h => exact Classical.not_not.1 h

/-- What a mask shows of two fields together. -/
theorem seen_and_bits (d : Draft) (f g : Field) [Decidable (d.Sees f)] [Decidable (d.Sees g)] :
    d.seen &&& (f.bit ||| g.bit) =
      (if d.Sees f then f.bit else 0) ||| if d.Sees g then g.bit else 0 := by
  rw [UInt32.and_comm, and_or_bit, UInt32.and_comm, seen_and_bit, UInt32.and_comm, seen_and_bit]

instance (d : Draft) (f : Field) : Decidable (d.Sees f) := inferInstanceAs (Decidable (_ ≠ _))

theorem seen_required : d.seen &&& required = required ↔ d.Sees .directory ∧ d.Sees .file := by
  rw [required, seen_and_bits]
  by_cases hdirectory : d.Sees .directory <;> by_cases hfile : d.Sees .file <;>
    simp only [hdirectory, hfile, if_true, if_false] <;> decide

theorem seen_arguments : d.seen &&& invocation = Field.arguments.bit ↔
    d.Sees .arguments ∧ ¬d.Sees .command := by
  rw [invocation, seen_and_bits]
  by_cases harguments : d.Sees .arguments <;> by_cases hcommand : d.Sees .command <;>
    simp only [harguments, hcommand, if_true, if_false] <;> decide

theorem seen_command : d.seen &&& invocation = Field.command.bit ↔
    ¬d.Sees .arguments ∧ d.Sees .command := by
  rw [invocation, seen_and_bits]
  by_cases harguments : d.Sees .arguments <;> by_cases hcommand : d.Sees .command <;>
    simp only [harguments, hcommand, if_true, if_false] <;> decide

/-- A finished draft, by the fields that it has seen. -/
theorem isWellFormed_iff : d.isWellFormed = true ↔
    d.malformed = false ∧ (d.Sees .directory ∧ d.Sees .file) ∧
      (d.Sees .arguments ∧ ¬d.Sees .command ∧ d.command.arguments ≠ [] ∨
        ¬d.Sees .arguments ∧ d.Sees .command) := by
  have hforms : Field.command.bit ≠ Field.arguments.bit := by decide
  simp only [isWellFormed, Bool.and_eq_true, Bool.or_eq_true, beq_iff_eq, bne_iff_ne,
    Bool.not_eq_true', ne_eq, List.isEmpty_eq_false_iff, seen_required]
  rw [and_assoc, and_assoc]
  refine and_congr_right fun _ => and_congr_right fun _ => ?_
  rw [seen_arguments, seen_command]
  tauto

/-! ## What a draft gathers -/

/-- What a draft knows of the values of the fields. -/
structure Gathers (d : Draft) (value : String → Option Json) : Prop where
  sees : ∀ f : Field, f ≠ .unset → (d.Sees f ↔ (value f.key).isSome)
  shows : d.malformed = false → ∀ f : Field, f ≠ .unset → f.Shows d.command (value f.key)
  misfit : d.malformed = true →
    ∃ f : Field, f ≠ .unset ∧ ∃ j, value f.key = some j ∧ ∀ c, ¬f.Shows c (some j)

theorem gathers_fresh : ({} : Draft).Gathers (Object.get? []) where
  sees := by
    intro f hf
    cases f <;> decide
  shows _ f _ := f.shows_fresh
  misfit h := by cases h

/-- One more member, with a key of its own. -/
theorem Gathers.add {o : Object} (h : d.Gathers o.get?) {k : String} (hk : k ∉ o.keys) (j : Json) :
    (d.add k j).Gathers (Object.get? (o ++ [(k, j)])) := by
  have hvalue : ∀ f : Field, f ≠ .unset → Object.get? (o ++ [(k, j)]) f.key =
      if Field.ofKey k = f then some j else o.get? f.key := by
    intro f hf
    rw [Object.get?_concat hk]
    exact if_congr (eq_comm.trans (Field.ofKey_eq_iff hf).symm) rfl rfl
  have hfill := d.fill_cases (Field.ofKey k) j
  constructor
  · intro f hf
    rw [sees_add, h.sees f hf, hvalue f hf]
    split
    · next hkey => simp [hkey, hf]
    · next hkey => simp [hkey]
  · intro hwell f hf
    rcases hfill with ⟨hsame, hshown⟩ | ⟨hmalformed, -⟩
    · rw [hvalue f hf]
      split
      · next hkey => exact hkey ▸ hshown
      · next hkey =>
        exact (d.shows_fill_of_ne (Ne.symm hkey) j _).2 (h.shows (hsame ▸ hwell) f hf)
    · cases hmalformed.symm.trans hwell
  · intro hmal
    rcases hfill with ⟨hsame, -⟩ | ⟨-, hmisfit⟩
    · obtain ⟨f, hf, j', hj', hno⟩ := h.misfit (hsame ▸ hmal)
      have hkey : Field.ofKey k ≠ f := by
        intro hkey
        rw [← (Field.ofKey_eq_iff hf).1 hkey, Object.get?_eq_none_iff.2 hk] at hj'
        cases hj'
      exact ⟨f, hf, j', by rw [hvalue f hf, if_neg hkey, hj'], hno⟩
    · have hset : Field.ofKey k ≠ .unset := fun hunset => hmisfit default (hunset ▸ trivial)
      exact ⟨_, hset, j, by rw [hvalue _ hset, if_pos rfl], hmisfit⟩

/-- The draft of an object with distinct keys, in whatever order they stand. -/
theorem gathers_ofObject {o : Object} (h : o.keys.Nodup) : (ofObject o).Gathers o.get? := by
  induction o using List.reverseRecOn with
  | nil => exact gathers_fresh
  | append_singleton o m ih =>
    rw [Object.keys_append, List.nodup_append] at h
    obtain ⟨hrest, -, hapart⟩ := h
    have hkey : m.1 ∉ Object.keys o := fun hm => hapart m.1 hm m.1 (List.mem_singleton_self _) rfl
    rw [ofObject, List.foldl_append]
    exact (ih hrest).add hkey m.2

/-! ## Records -/

variable {value : String → Option Json}

/-- A finished draft that is a command carries what it has gathered. -/
theorem Gathers.carries (h : d.Gathers value) (hw : d.isWellFormed = true) :
    d.command.Carries value := by
  obtain ⟨hwell, ⟨hdirectory, hfile⟩, hforms⟩ := isWellFormed_iff.1 hw
  have hshows := h.shows hwell
  constructor
  · obtain ⟨j, hj⟩ := Option.isSome_iff_exists.1 ((h.sees .directory (by decide)).1 hdirectory)
    have hshown := hshows .directory (by decide)
    rw [hj] at hshown
    exact hj.trans (congrArg some hshown)
  · obtain ⟨j, hj⟩ := Option.isSome_iff_exists.1 ((h.sees .file (by decide)).1 hfile)
    have hshown := hshows .file (by decide)
    rw [hj] at hshown
    exact hj.trans (congrArg some hshown)
  · have hshown := hshows .arguments (by decide)
    rcases hforms with ⟨hsees, -, hne⟩ | ⟨hunseen, -⟩
    · obtain ⟨j, hj⟩ := Option.isSome_iff_exists.1 ((h.sees .arguments (by decide)).1 hsees)
      rw [hj] at hshown
      rw [if_neg hne]
      exact hj.trans (congrArg some hshown)
    · have hnone := Option.not_isSome_iff_eq_none.1 (mt (h.sees .arguments (by decide)).2 hunseen)
      rw [hnone] at hshown
      rw [if_pos (show d.command.arguments = [] from hshown)]
      exact hnone
  · exact hshows .command (by decide)
  · exact hshows .output (by decide)

/-- No field of a record has a value of a wrong type. -/
theorem Gathers.malformed_eq_false (h : d.Gathers value) (hr : IsRecord value) :
    d.malformed = false := by
  refine Bool.eq_false_iff.2 fun hmal => ?_
  obtain ⟨f, hf, j, hj, hno⟩ := h.misfit hmal
  cases f with
  | unset => exact hf rfl
  | directory =>
    obtain ⟨s, hs⟩ := hr.directory
    exact hno { directory := s, file := "" } (Option.some.inj (hj.symm.trans hs))
  | file =>
    obtain ⟨s, hs⟩ := hr.file
    exact hno { directory := "", file := s } (Option.some.inj (hj.symm.trans hs))
  | arguments =>
    obtain ⟨ss, -, hss⟩ := hr.arguments j hj
    exact hno { directory := "", file := "", arguments := ss } hss
  | command =>
    obtain ⟨s, rfl⟩ := hr.command j hj
    exact hno { directory := "", file := "", command := some s } rfl
  | output =>
    rcases hr.output j hj with rfl | ⟨s, rfl⟩
    · exact hno { directory := "", file := "" } (Option.filter_some_neg (by simp))
    · exact hno { directory := "", file := "", output := some s }
        (Option.filter_some_pos (by simp))

/-- The draft of a record is a command. -/
theorem Gathers.isWellFormed (h : d.Gathers value) (hr : IsRecord value) :
    d.isWellFormed = true := by
  have hwell := h.malformed_eq_false hr
  rw [isWellFormed_iff, h.sees .directory (by decide), h.sees .file (by decide),
    h.sees .arguments (by decide), h.sees .command (by decide)]
  obtain ⟨s, hdirectory⟩ := hr.directory
  obtain ⟨s', hfile⟩ := hr.file
  refine ⟨hwell, ⟨Option.isSome_of_eq_some hdirectory, Option.isSome_of_eq_some hfile⟩, ?_⟩
  by_cases hsome : (value "arguments").isSome
  · obtain ⟨j, hj⟩ := Option.isSome_iff_exists.1 hsome
    obtain ⟨ss, hne, rfl⟩ := hr.arguments j hj
    have hshown := h.shows hwell .arguments (by decide)
    rw [show value Field.arguments.key = _ from hj] at hshown
    refine .inl ⟨hsome, hr.oneForm.1 hsome, fun hnil => hne ?_⟩
    have hitems : ss.map Json.string = d.command.arguments.map Json.string := Json.array.inj hshown
    rw [hnil] at hitems
    exact List.map_eq_nil_iff.1 hitems
  · exact .inr ⟨hsome, Classical.not_not.1 fun hno => hsome (hr.oneForm.2 hno)⟩

end Draft

namespace CompileCommand

variable {value : String → Option Json} {c : CompileCommand}

/-- What a command in one form carries is a record. -/
theorem Carries.isRecord (h : c.Carries value) (hform : c.InOneForm) : IsRecord value := by
  obtain ⟨hdirectory, hfile, harguments, hcommand, houtput⟩ := h
  constructor
  · exact ⟨_, hdirectory⟩
  · exact ⟨_, hfile⟩
  · rw [harguments, hcommand]
    rcases hform with ⟨hne, hnone⟩ | ⟨hnil, hsome⟩
    · simp [hne, hnone]
    · simp [hnil, hsome]
  · intro j hj
    rw [harguments, Option.ite_none_left_eq_some] at hj
    exact ⟨c.arguments, hj.1, (Option.some.inj hj.2).symm⟩
  · intro j hj
    rw [hcommand] at hj
    obtain ⟨s, -, hs⟩ := Option.map_eq_some_iff.1 hj
    exact ⟨s, hs.symm⟩
  · intro j hj
    by_cases hnull : j = .null
    · exact .inl hnull
    · rw [hj, Option.filter_some_pos (by simpa using hnull)] at houtput
      obtain ⟨s, -, hs⟩ := Option.map_eq_some_iff.1 houtput.symm
      exact .inr ⟨s, hs.symm⟩

/-- A record is what some command in one form carries. -/
theorem isRecord_iff : IsRecord value ↔ ∃ c : CompileCommand, c.InOneForm ∧ c.Carries value := by
  constructor
  · intro hr
    obtain ⟨directory, hdirectory⟩ := hr.directory
    obtain ⟨file, hfile⟩ := hr.file
    have houtput : ∃ output : Option String,
        (value "output").filter (· ≠ .null) = output.map Json.string := by
      rcases hvalue : value "output" with _ | j
      · exact ⟨none, rfl⟩
      · rcases hr.output j hvalue with rfl | ⟨s, rfl⟩
        · exact ⟨none, Option.filter_some_neg (by simp)⟩
        · exact ⟨some s, Option.filter_some_pos (by simp)⟩
    obtain ⟨output, houtput⟩ := houtput
    rcases harguments : value "arguments" with _ | j
    · have hsome : (value "command").isSome := by
        refine Classical.not_not.1 fun hno => ?_
        rw [← hr.oneForm, harguments] at hno
        cases hno
      obtain ⟨j, hcommand⟩ := Option.isSome_iff_exists.1 hsome
      obtain ⟨s, rfl⟩ := hr.command j hcommand
      exact ⟨⟨directory, file, [], some s, output⟩, .inr ⟨rfl, rfl⟩,
        hdirectory, hfile, harguments, hcommand, houtput⟩
    · obtain ⟨ss, hne, rfl⟩ := hr.arguments j harguments
      have hnone : value "command" = none :=
        Option.not_isSome_iff_eq_none.1 (hr.oneForm.1 (Option.isSome_of_eq_some harguments))
      refine ⟨⟨directory, file, ss, none, output⟩, .inl ⟨hne, rfl⟩,
        hdirectory, hfile, ?_, hnone, houtput⟩
      exact harguments.trans (if_neg hne).symm
  · rintro ⟨c, hform, hcarries⟩
    exact hcarries.isRecord hform

/-- **An object with distinct keys describes a command if and only if it is a record**, and then the
command carries the values of its keys. -/
theorem ofObject?_spec {o : Object} (h : o.keys.Nodup) :
    (IsRecord o.get? → ∃ c, ofObject? o = some c ∧ c.Carries o.get?) ∧
      (¬IsRecord o.get? → ofObject? o = none) := by
  have hgathers := Draft.gathers_ofObject h
  constructor
  · intro hr
    have hw := hgathers.isWellFormed hr
    exact ⟨_, if_pos hw, hgathers.carries hw⟩
  · intro hno
    refine if_neg fun hw => hno ?_
    exact (hgathers.carries hw).isRecord (Draft.inOneForm_of_isWellFormed (Draft.honest_ofObject o) hw)

/-! ## Values in normal form -/

theorem normal_eq_string_iff {j : Json} {s : String} : normal j = .string s ↔ j = .string s := by
  cases j <;> simp [normal]

theorem normal_eq_null_iff {j : Json} : normal j = .null ↔ j = .null := by
  cases j <;> simp [normal]

theorem normalItems_eq_strings_iff {js : List Json} {ss : List String} :
    normalItems js = ss.map Json.string ↔ js = ss.map Json.string := by
  induction js generalizing ss with
  | nil => rfl
  | cons j js ih =>
    cases ss with
    | nil => simp [normalItems]
    | cons s ss => rw [normalItems, List.map_cons, List.cons.injEq, List.cons.injEq, ih,
        normal_eq_string_iff]

theorem normal_eq_strings_iff {j : Json} {ss : List String} :
    normal j = .array (ss.map Json.string) ↔ j = .array (ss.map Json.string) := by
  cases j <;> simp [normal, normalItems_eq_strings_iff]

/-- A command carries values if and only if it carries their normal forms. -/
theorem carries_normal_iff :
    c.Carries (fun key => (value key).map normal) ↔ c.Carries value := by
  have hstring : ∀ (v : Option Json) (s : Option String),
      v.map normal = s.map Json.string ↔ v = s.map Json.string := by
    intro v s
    cases v <;> cases s <;> simp [normal_eq_string_iff]
  have harguments : ∀ v : Option Json,
      v.map normal = (if c.arguments = [] then none else some (.array (c.arguments.map Json.string))) ↔
        v = if c.arguments = [] then none else some (.array (c.arguments.map Json.string)) := by
    intro v
    cases v <;> split <;> simp [normal_eq_strings_iff]
  have houtput : ∀ v : Option Json,
      (v.map normal).filter (· ≠ .null) = c.output.map Json.string ↔
        v.filter (· ≠ .null) = c.output.map Json.string := by
    intro v
    rw [Option.filter_map, hstring]
    simp only [Function.comp_def, ne_eq, normal_eq_null_iff]
  constructor
  · rintro ⟨h₁, h₂, h₃, h₄, h₅⟩
    exact ⟨(hstring _ (some _)).1 h₁, (hstring _ (some _)).1 h₂, (harguments _).1 h₃,
      (hstring _ _).1 h₄, (houtput _).1 h₅⟩
  · rintro ⟨h₁, h₂, h₃, h₄, h₅⟩
    exact ⟨(hstring _ (some _)).2 h₁, (hstring _ (some _)).2 h₂, (harguments _).2 h₃,
      (hstring _ _).2 h₄, (houtput _).2 h₅⟩

/-- Values are a record if and only if their normal forms are. -/
theorem isRecord_normal_iff :
    IsRecord (fun key => (value key).map normal) ↔ IsRecord value := by
  simp only [isRecord_iff, carries_normal_iff]

end CompileCommand

end IndexFeed
