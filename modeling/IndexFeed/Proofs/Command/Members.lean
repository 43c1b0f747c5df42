import IndexFeed.Command.Draft

/-!
# The members of a command

An object that describes a command gives its invocation in one form.  So the members that the command
is written with, which leave the other form out, describe it again.
-/

set_option autoImplicit false

namespace IndexFeed

open Json (Object normal normalItems normalMembers)

/-- The invocation is given in exactly one of its two forms. -/
def CompileCommand.InOneForm (c : CompileCommand) : Prop :=
  c.arguments ≠ [] ∧ c.command = none ∨ c.arguments = [] ∧ c.command.isSome

namespace Draft

/-! ## Fields seen -/

/-- The draft has seen a field. -/
def Sees (d : Draft) (field : Field) : Prop := d.seen &&& field.bit ≠ 0

theorem and_or_bit (a b c : UInt32) : (a ||| b) &&& c = (a &&& c) ||| (b &&& c) := by
  apply UInt32.toBitVec_inj.1
  ext i
  simp [Bool.and_or_distrib_right]

theorem bit_and_bit {f g : Field} : f.bit &&& g.bit ≠ 0 ↔ f = g ∧ g ≠ .unset := by
  cases f <;> cases g <;> decide

/-- A draft sees the field of the member added and those that it has seen before. -/
theorem sees_add {d : Draft} {key : String} {value : Json} {field : Field} :
    (d.add key value).Sees field ↔ d.Sees field ∨ Field.ofKey key = field ∧ field ≠ .unset := by
  rw [← bit_and_bit]
  simp only [Sees, add, and_or_bit, ne_eq, UInt32.or_eq_zero_iff]
  exact Decidable.not_and_iff_not_or_not

/-- Filling a field leaves the others alone, and a draft that is malformed. -/
theorem fill_spec (d : Draft) (field : Field) (value : Json) :
    (field = .arguments ∨ (d.fill field value).command.arguments = d.command.arguments) ∧
      (field = .command ∨ (d.fill field value).command.command = d.command.command) ∧
      ((d.fill field value).malformed = false → d.malformed = false ∧
        (field = .command → (d.fill field value).command.command.isSome)) := by
  unfold fill
  split
  · simp
  · simp
  · simp
  · simp
  · simp
  · simp
  · split <;> simp
  · simp

/-- What the fields of a draft tell of what it has seen. -/
structure Honest (d : Draft) : Prop where
  arguments : d.command.arguments ≠ [] → d.Sees .arguments
  command : d.command.command.isSome → d.Sees .command
  filled : d.malformed = false → d.Sees .command → d.command.command.isSome

theorem Honest.add {d : Draft} (h : d.Honest) (key : String) (value : Json) :
    (d.add key value).Honest := by
  obtain ⟨harguments, hcommand, hfilled⟩ := d.fill_spec (Field.ofKey key) value
  constructor
  · intro hne
    rw [sees_add]
    rcases harguments with hkey | hsame
    · exact .inr ⟨hkey, by decide⟩
    · exact .inl (h.arguments (hsame ▸ hne))
  · intro hsome
    rw [sees_add]
    rcases hcommand with hkey | hsame
    · exact .inr ⟨hkey, by decide⟩
    · exact .inl (h.command (hsame ▸ hsome))
  · intro hwell hsees
    obtain ⟨hd, hnew⟩ := hfilled hwell
    rcases hcommand with hkey | hsame
    · exact hnew hkey
    · rcases sees_add.1 hsees with hbefore | ⟨hkey, -⟩
      · show (d.fill _ value).command.command.isSome
        rw [hsame]
        exact h.filled hd hbefore
      · exact hnew hkey

theorem honest_ofObject (o : Object) : (ofObject o).Honest := by
  have hfresh : ({} : Draft).Honest := by
    constructor
    · exact fun hne => absurd rfl hne
    · intro hsome
      cases hsome
    · intro _ hsees
      exact absurd (by decide) hsees
  exact List.foldlRecOn o _ hfresh fun d h m _ => h.add m.1 m.2

/-- A mask that shows one form of the invocation does not show the other. -/
theorem sees_of_forms {d : Draft} {field : Field} {forms : UInt32}
    (h : d.seen &&& invocation = forms) (hfield : field.bit = invocation &&& field.bit) :
    d.Sees field ↔ forms &&& field.bit ≠ 0 := by
  have hsame : d.seen &&& field.bit = forms &&& field.bit := by
    rw [← h, UInt32.and_assoc, ← hfield]
  rw [Sees, hsame]

/-- A draft that is a command has its invocation in one form. -/
theorem inOneForm_of_isWellFormed {d : Draft} (h : d.Honest) (hw : d.isWellFormed = true) :
    d.command.InOneForm := by
  simp only [isWellFormed, Bool.and_eq_true, Bool.or_eq_true, beq_iff_eq, bne_iff_ne,
    Bool.not_eq_true', ne_eq, List.isEmpty_eq_false_iff] at hw
  obtain ⟨⟨⟨hwell, -⟩, hforms⟩, hgiven⟩ := hw
  rcases hforms with hforms | hforms
  · left
    have hcommand : ¬ d.Sees .command := by
      rw [sees_of_forms hforms (by decide)]
      decide
    refine ⟨?_, Option.not_isSome_iff_eq_none.1 fun hsome => hcommand (h.command hsome)⟩
    exact hgiven.resolve_left fun hno => hno hforms
  · right
    have harguments : ¬ d.Sees .arguments := by
      rw [sees_of_forms hforms (by decide)]
      decide
    have hcommand : d.Sees .command := by
      rw [sees_of_forms hforms (by decide)]
      decide
    exact ⟨Classical.byContradiction fun hne => harguments (h.arguments hne),
      h.filled hwell hcommand⟩

/-- A draft is a command that has seen what every command has and one form of the invocation. -/
theorem isWellFormed_of_forms {c : CompileCommand} {seen : UInt32} (hneeded : seen &&& required = required)
    (hforms : seen &&& invocation = Field.arguments.bit ∧ c.arguments ≠ [] ∨
      seen &&& invocation = Field.command.bit) :
    ({ command := c, seen } : Draft).isWellFormed = true := by
  have hother : Field.command.bit ≠ Field.arguments.bit := by decide
  rcases hforms with ⟨hforms, hne⟩ | hforms
  · simp [isWellFormed, hneeded, hforms, hne]
  · simp [isWellFormed, hneeded, hforms, hother]

/-- Texts are read back as they are. -/
theorem texts?_strings (ss : List String) : texts? (ss.map Json.string) = some ss := by
  induction ss with
  | nil => rfl
  | cons s ss ih => rw [List.map_cons, texts?, ih, Option.map_some]

end Draft

theorem normalItems_strings (ss : List String) :
    normalItems (ss.map Json.string) = ss.map Json.string := by
  induction ss with
  | nil => rfl
  | cons s ss ih => rw [List.map_cons, normalItems, ih, normal]

namespace CompileCommand

/-- A command that an object describes has its invocation in one form. -/
theorem inOneForm_of_ofObject? {o : Object} {c : CompileCommand} (h : ofObject? o = some c) :
    c.InOneForm := by
  simp only [ofObject?, Option.ite_none_right_eq_some, Option.some.injEq] at h
  obtain ⟨hw, rfl⟩ := h
  exact Draft.inOneForm_of_isWellFormed (Draft.honest_ofObject o) hw

/-- The members of a command in their normal form. -/
theorem normalMembers_members (c : CompileCommand) :
    normalMembers c.members =
      (if c.arguments.isEmpty then []
        else [("arguments", .array (c.arguments.map Json.string))]) ++
      (c.command.map fun s => ("command", Json.string s)).toList ++
      [("directory", .string c.directory), ("file", .string c.file)] ++
      (c.output.map fun s => ("output", Json.string s)).toList := by
  obtain ⟨directory, file, arguments, command, output⟩ := c
  have hitems := normalItems_strings arguments
  cases harguments : arguments.isEmpty <;> cases command <;> cases output <;>
    simp only [members, harguments, normalMembers, normal, hitems, Object.insertNew, String.reduceLT,
      String.reduceEq, reduceIte, Bool.false_eq_true, Option.map_none, Option.map_some,
      Option.toList_none, Option.toList_some, List.append_nil, List.nil_append, List.cons_append]

/-- **A command is described by its own members**, in their normal form, if its invocation is given in
one form. -/
theorem ofObject?_members {c : CompileCommand} (h : c.InOneForm) :
    ofObject? (normalMembers c.members) = some c := by
  rw [normalMembers_members]
  obtain ⟨directory, file, arguments, command, output⟩ := c
  have htexts := Draft.texts?_strings arguments
  rcases h with ⟨hne, rfl⟩ | ⟨rfl, hsome⟩
  · have hgiven : arguments.isEmpty = false := List.isEmpty_eq_false_iff.2 hne
    cases output <;>
      simp [ofObject?, Draft.ofObject, Draft.add, Field.ofKey, Draft.fill, htexts, hgiven] <;>
      exact Draft.isWellFormed_of_forms (by decide) (.inl ⟨by decide, hne⟩)
  · obtain ⟨text, rfl⟩ := Option.isSome_iff_exists.1 hsome
    cases output <;>
      simp [ofObject?, Draft.ofObject, Draft.add, Field.ofKey, Draft.fill] <;>
      exact Draft.isWellFormed_of_forms (by decide) (.inr (by decide))

end CompileCommand

end IndexFeed
