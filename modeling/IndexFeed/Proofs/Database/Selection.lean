import IndexFeed.Proofs.Command.Record
import IndexFeed.Proofs.Database.Counting
import IndexFeed.Proofs.Json.Writing

/-!
# Which objects are collected

A collector appends one command for an object that is a record, which carries the values of the
record, and drops any other object.  Of a text that repeats keys, the last occurrence of each key
counts.
-/

set_option autoImplicit false

namespace IndexFeed.Database

open Json (Cursor Decoder Object Written deepest normalMembers)

namespace Collector

/-- What a collector does with an object, where `value` tells the values of its keys. -/
structure Selects (c : Collector) (o : Object) (value : String → Option Json) : Prop where
  collected : IsRecord value → ∃ command : CompileCommand, command.Carries value ∧
    (handler c o).1.commands = c.commands ++ [command] ∧ (handler c o).1.dropped = c.dropped
  dropped : ¬IsRecord value → (handler c o).1.commands = c.commands ∧
    (handler c o).1.dropped.length = c.dropped.length + 1
  goesOn : (handler c o).2 = true ↔
    ∀ limit, c.limit = some limit → (handler c o).1.commands.length < limit

variable {c : Collector} {o : Object} {value : String → Option Json}

theorem not_isFull_iff :
    (!c.isFull) = true ↔ ∀ limit, c.limit = some limit → c.commands.length < limit := by
  unfold isFull
  split
  · next n hn => simp [hn]
  · next hn => simp [hn]

theorem dropped_take_of_some {command : CompileCommand}
    (h : CompileCommand.ofObject? o = some command) : (c.take o).dropped = c.dropped := by
  rw [CompileCommand.ofObject?, Option.ite_none_right_eq_some] at h
  unfold take
  dsimp only
  rw [if_pos h.1]

theorem selects_get? (h : o.keys.Nodup) (c : Collector) : c.Selects o o.get? := by
  obtain ⟨hrecord, hother⟩ := CompileCommand.ofObject?_spec h
  have hcommands := c.commands_take o
  constructor
  · intro hr
    obtain ⟨command, hsome, hcarries⟩ := hrecord hr
    refine ⟨command, hcarries, ?_, dropped_take_of_some hsome⟩
    rwa [wellFormed, List.filterMap_cons_some hsome] at hcommands
  · intro hno
    rw [wellFormed, List.filterMap_cons_none (hother hno), List.filterMap_nil, List.append_nil]
      at hcommands
    have hlength := c.length_take o
    rw [hcommands] at hlength
    refine ⟨hcommands, ?_⟩
    show (c.take o).dropped.length = _
    omega
  · show (!(c.take o).isFull) = true ↔ _
    rw [not_isFull_iff, limit_take]
    rfl

/-- The normal forms of values select the same. -/
theorem Selects.of_normal (h : c.Selects o fun key => (value key).map Json.normal) :
    c.Selects o value := by
  obtain ⟨hcollected, hdropped, hgoesOn⟩ := h
  rw [CompileCommand.isRecord_normal_iff] at hcollected hdropped
  refine ⟨fun hr => ?_, hdropped, hgoesOn⟩
  obtain ⟨command, hcarries, hrest⟩ := hcollected hr
  exact ⟨command, CompileCommand.carries_normal_iff.1 hcarries, hrest⟩

/-- **An object is collected if and only if it is a record.** Whatever a collector holds, and in
whatever order the members of the object stand, provided that no two have the same key: it appends
one command that carries the values of the record, or it drops the object and leaves the commands as
they are; and it goes on if and only if it holds fewer commands than its limit, if it has one.  An
object that is read from its text is selected by the last occurrence of each of its keys. -/
theorem selects :
    (∀ (c : Collector) (o : Object), o.keys.Nodup → c.Selects o o.get?) ∧
      ∀ (c : Collector) (ms : Object) (p : Bytes) (start stop : Cursor),
        Written deepest (.value (.object ms)) p → start.Takes p stop →
          ∃ o, Decoder.element.run start = .ok (o, stop) ∧ o.keys.Nodup ∧ c.Selects o ms.last? := by
  refine ⟨fun c o h => selects_get? h c, ?_⟩
  intro c ms p start stop hwritten htakes
  have hkeys := (Json.ascends_normalMembers ms).nodup
  have hread := Json.membersAround_complete hwritten htakes
  refine ⟨normalMembers ms, Decoder.map_eq_ok_iff.2 ⟨ms, hread, rfl⟩, hkeys, ?_⟩
  have hselects := selects_get? hkeys c
  rw [show Object.get? (normalMembers ms) = _ from funext (Json.get?_normalMembers ms)] at hselects
  exact hselects.of_normal

/-- The members of a text that repeats a key. -/
def repeated : Object :=
  [("file", .bool true), ("directory", .string "/w"), ("extra", .null), ("file", .string "a.c"),
    ("command", .string "cc a.c"), ("output", .null)]

/-- A collector that takes one command takes it from a text that repeats a key. -/
theorem selects_repeated : IsRecord repeated.last? ∧
    ∃ o stop, Decoder.element.run (.start (Utf8.encodeChars (Json.object repeated).chars)) =
        .ok (o, stop) ∧
      (handler { limit := some 1 } o).1.commands.length = 1 ∧
      (handler { limit := some 1 } o).2 = false ∧
      (Collector.Selects { limit := some 1 } o o.get?) := by
  have hrecord : IsRecord repeated.last? := by
    constructor
    · exact ⟨"/w", rfl⟩
    · exact ⟨"a.c", rfl⟩
    · decide
    · exact fun j hj => nomatch hj
    · exact fun j hj => ⟨"cc a.c", (Option.some.inj hj).symm⟩
    · exact fun j hj => .inl (Option.some.inj hj).symm
  have hwritten : Written deepest (.value (.object repeated))
      (Utf8.encodeChars (Json.object repeated).chars) := by
    have hcompact := Json.written_chars (f := id) (.object repeated)
      fun x hx => absurd hx List.not_mem_nil
    exact hcompact.mono (by decide)
  obtain ⟨o, hread, hkeys, hselects⟩ := selects.2 { limit := some 1 } repeated _
    (.start (Utf8.encodeChars (Json.object repeated).chars)) ⟨_, []⟩ hwritten
    ⟨by simp [Cursor.start], rfl⟩
  obtain ⟨command, -, hcommands, -⟩ := hselects.collected hrecord
  have hlength : (handler { limit := some 1 } o).1.commands.length = 1 := by rw [hcommands]; rfl
  refine ⟨hrecord, o, _, hread, hlength, ?_, selects.1 _ o hkeys⟩
  refine Bool.eq_false_iff.2 fun hmore => ?_
  have hlt := hselects.goesOn.1 hmore 1 rfl
  omega

end Collector

end IndexFeed.Database
