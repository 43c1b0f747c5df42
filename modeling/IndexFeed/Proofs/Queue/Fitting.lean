import IndexFeed.Proofs.Command.Fitting
import IndexFeed.Proofs.Json.TaggedValues

/-!
# Which values are tasks

A JSON value is a task if it says which one and gives its fields.  What it says is the value of its one
member `type`, or the first item of an array; the fields come from all that is left.
-/

set_option autoImplicit false

namespace IndexFeed

open Json (Misfit Record Shape Slot Tagged)

variable {j body : Json}

/-! ## Numbers -/

namespace Json

theorem accept_natural_eq_ok_iff {expected : String} {k : Nat} :
    (Shape.natural expected 64).accept j = .ok k ↔ k < 0x10000000000000000 ∧ j = .nat k := by
  constructor
  · intro h
    obtain ⟨i, hi, rfl⟩ := map_eq_ok_iff.1 h
    cases j with
    | number x =>
      cases x with
      | integer i' least most =>
        have hrange : (if 0 ≤ i' ∧ i' ≤ Nat.pow 2 64 - 1 then .ok i'
            else .error (.range (.integer i') expected) : Except Misfit Int) = .ok i := hi
        split at hrange
        · next hle =>
          cases hrange
          obtain ⟨hnonneg, -⟩ := hle
          refine ⟨by omega, ?_⟩
          have hmin : ((min i.toNat 0xffffffffffffffff : Nat) : Int) = i := by omega
          simp only [Json.nat, hmin]
        · cases hrange
      | float x => cases hi
    | null | bool | string | array | object => cases hi
  · rintro ⟨hk, rfl⟩
    exact accept_natural hk hk

end Json

/-! ## Tags -/

namespace Json.Tagged

variable {known : List String} {expected tag : String} {ms : Object} {t : Tagged}

/-- The value says the tag, and the body is what is left of it. -/
def Says (tag : String) (body : Json) : Json → Prop
  | .object ms => valuesOf ms key = [.string tag] ∧ body = .object (ms.filter (·.1 != key))
  | .array js => ∃ rest, js = .string tag :: rest ∧ body = .array rest
  | _ => False

theorem acceptTag_eq_ok_iff :
    acceptTag known j = .ok tag ↔ j = .string tag ∧ known.contains tag = true := by
  constructor
  · exact acceptTag_eq_ok
  · rintro ⟨rfl, hknown⟩
    rw [acceptTag, if_pos hknown]

theorem ofMembers_eq_ok_iff : ofMembers known ms = .ok t ↔
    known.contains t.tag = true ∧ Says t.tag t.body (.object ms) := by
  obtain ⟨tag, body⟩ := t
  have hsaid : Says tag body (.object ms) ↔ (ms.filter (·.1 == key)).map Prod.snd = [.string tag] ∧
      body = .object (ms.filter (·.1 != key)) := Iff.rfl
  rw [hsaid]
  unfold ofMembers
  split
  · next hnone =>
    rw [hnone]
    exact ⟨nofun, nofun⟩
  · next m hone =>
    rw [hone, map_eq_ok_iff]
    constructor
    · rintro ⟨name, hname, ⟨⟩⟩
      obtain ⟨hstring, hknown⟩ := acceptTag_eq_ok_iff.1 hname
      exact ⟨hknown, congrArg (fun j => [j]) hstring, rfl⟩
    · rintro ⟨hknown, hstring, rfl⟩
      exact ⟨tag, acceptTag_eq_ok_iff.2 ⟨(List.cons.inj hstring).1, hknown⟩, rfl⟩
  · next m m' rest htwo =>
    rw [htwo, bind_eq_ok_iff]
    constructor
    · rintro ⟨name, -, ⟨⟩⟩
    · rintro ⟨-, hvalues, -⟩
      cases (List.cons.inj hvalues).2

/-- **A value is tagged if it says a known tag.** -/
theorem ofJson_eq_ok_iff : ofJson expected known j = .ok t ↔
    known.contains t.tag = true ∧ Says t.tag t.body j := by
  cases j with
  | object ms => exact ofMembers_eq_ok_iff
  | array js =>
    obtain ⟨tag, body⟩ := t
    cases js with
    | nil => exact ⟨nofun, fun h => nomatch h.2⟩
    | cons j js =>
      refine map_eq_ok_iff.trans ⟨?_, ?_⟩
      · rintro ⟨name, hname, ⟨⟩⟩
        obtain ⟨rfl, hknown⟩ := acceptTag_eq_ok_iff.1 hname
        exact ⟨hknown, js, rfl, rfl⟩
      · rintro ⟨hknown, rest, hjs, rfl⟩
        obtain ⟨rfl, rfl⟩ := List.cons.inj hjs
        exact ⟨tag, acceptTag_eq_ok_iff.2 ⟨rfl, hknown⟩, rfl⟩
  | null | bool | number | string => exact ⟨nofun, fun h => h.2.elim⟩

end Json.Tagged

/-! ## Tasks -/

namespace Queue.Task

/-- The task that a JSON value is. -/
def accept (j : Json) : Except Misfit Task :=
  (Tagged.ofJson "internally tagged enum DriverToWorker" tags j).bind ofTagged

/-- The value gives the fields of the task: a number and a command, and nothing is left over.  The end of
a run has no fields, and no items. -/
def GivenBy (t : Task) (body : Json) : Prop :=
  match t with
  | .index jobId c => body.Gives 0 "job_id" (some (.nat jobId.toNat)) ∧
      (∃ k, body.Gives 1 "command" (some k) ∧ c.Fits k) ∧ ∀ js, body = .array js → js.length ≤ 2
  | .shutdown => ∀ js, body = .array js → js = []

/-- The name of a task. -/
def tag : Task → String
  | .index _ _ => "index"
  | .shutdown => "shutdown"

/-- The value says the task and gives its fields. -/
def Fits (t : Task) (j : Json) : Prop := ∃ body, Tagged.Says t.tag body j ∧ t.GivenBy body

variable {t : Task} {jobId : UInt64} {c : CompileCommand} {f : IndexFields}

theorem field_jobId : indexRecord.Field 0 "job_id" IndexFields.jobId (.natural "u64" 64) where
  slot := ⟨_, rfl, fun _ _ => rfl⟩
  others := by simp [indexRecord, Slot.leaves_of]
  start := rfl

theorem field_command : indexRecord.Field 1 "command" IndexFields.command CompileCommand.shape where
  slot := ⟨_, rfl, fun _ _ => rfl⟩
  others := by simp [indexRecord, Slot.leaves_of]
  start := rfl

theorem separate : indexRecord.Separate := by
  intro i hi
  match i, hi with
  | 0, _ => exact ⟨_, _, _, _, field_jobId⟩
  | 1, _ => exact ⟨_, _, _, _, field_command⟩
  | i + 2, hi => exact absurd hi (Nat.not_lt_of_le (Nat.le_add_left 2 i))

theorem accept_index_eq_ok_iff : indexRecord.accept j = .ok t ↔ ∃ f, indexRecord.gather j = .ok f ∧
    (∃ k c, f.jobId = some k ∧ f.command = some c ∧ .index (.ofNat k) c = t) ∧
      ∀ js, j = .array js → js.length ≤ 2 :=
  Record.accept_eq_ok_iff
    (fun _ => Record.bind_needs_eq_ok_iff (fun _ => Record.need_eq_ok_iff)
      fun _ => Record.need_eq_ok_iff)
    fun _ _ => Record.bind_needs_eq_ok_iff (fun _ => Record.needItem_eq_ok_iff)
      fun _ => Record.needItem_eq_ok_iff

/-- What gives the fields of a task fills them all. -/
theorem exists_gather (h : GivenBy (.index jobId c) j) : ∃ f, indexRecord.gather j = .ok f := by
  obtain ⟨hjobId, ⟨k, hk, hc⟩, -⟩ := h
  refine separate.exists_gather (List.cons_ne_nil _ _) fun i slot hslot => ?_
  match i, hslot with
  | 0, rfl =>
    refine ⟨_, hjobId, ?_⟩
    rintro _ ⟨⟩
    exact Record.takes_of (Reply.accept_natural64 "u64" jobId)
  | 1, rfl =>
    refine ⟨_, hk, ?_⟩
    rintro _ ⟨⟩
    exact Record.takes_of (CompileCommand.accept_eq_ok_iff.2 hc)

/-- **A task to index is accepted from the values that give its fields**, and from no others. -/
theorem accept_index_iff_givenBy :
    indexRecord.accept j = .ok t ↔ ∃ jobId c, t = .index jobId c ∧ t.GivenBy j := by
  rw [accept_index_eq_ok_iff]
  constructor
  · rintro ⟨f, hf, ⟨n, c, hn, hc, rfl⟩, hlength⟩
    obtain ⟨o, ho, hfills⟩ := field_jobId.fills hf
    obtain ⟨o', ho', hfills'⟩ := field_command.fills hf
    rw [hn] at hfills
    rw [hc] at hfills'
    obtain ⟨x, rfl, hx⟩ := Shape.fills_some_iff.1 hfills
    obtain ⟨k, rfl, hk⟩ := Shape.fills_some_iff.1 hfills'
    obtain ⟨hlt, rfl⟩ := Json.accept_natural_eq_ok_iff.1 hx
    refine ⟨_, c, rfl, ?_, ⟨k, ho', CompileCommand.accept_eq_ok_iff.1 hk⟩, hlength⟩
    rwa [UInt64.toNat_ofNat_of_lt' hlt]
  · rintro ⟨jobId, c, rfl, h⟩
    obtain ⟨f, hf⟩ := exists_gather h
    obtain ⟨hjobId, ⟨k, hk, hc⟩, hlength⟩ := h
    have hn := (field_jobId.fills_of_gives hf hjobId).eq_some (Reply.accept_natural64 "u64" jobId)
    have hc := (field_command.fills_of_gives hf hk).eq_some (CompileCommand.accept_eq_ok_iff.2 hc)
    exact ⟨f, hf, ⟨_, c, hn, hc, by rw [UInt64.ofNat_toNat]⟩, hlength⟩

theorem acceptShutdown_iff_givenBy :
    acceptShutdown j = .ok t ↔ t = .shutdown ∧ t.GivenBy j := by
  have hempty : acceptShutdown j = .ok t ↔ t = .shutdown ∧ ∀ js, j = .array js → js = [] := by
    unfold acceptShutdown
    split
    · exact ⟨nofun, fun h => nomatch h.2 _ rfl⟩
    · next hj =>
      rw [Except.ok.injEq, eq_comm, and_iff_left]
      rintro (_ | ⟨item, items⟩) hjs
      · rfl
      · exact absurd hjs (hj item items)
  refine hempty.trans (and_congr_right ?_)
  rintro rfl
  exact Iff.rfl

/-- **A value is a task if it says one and gives its fields.** -/
theorem accept_eq_ok_iff : accept j = .ok t ↔ t.Fits j := by
  refine bind_eq_ok_iff.trans ⟨?_, ?_⟩
  · rintro ⟨⟨tag, body⟩, htagged, ht⟩
    obtain ⟨hknown, hsaid⟩ := Tagged.ofJson_eq_ok_iff.1 htagged
    unfold ofTagged at ht
    split at ht
    · next htag =>
      obtain rfl : tag = "index" := htag
      obtain ⟨jobId, c, rfl, hgiven⟩ := accept_index_iff_givenBy.1 ht
      exact ⟨body, hsaid, hgiven⟩
    · next htag =>
      obtain ⟨rfl, hgiven⟩ := acceptShutdown_iff_givenBy.1 ht
      have htags : tag = "index" ∨ tag = "shutdown" := by simpa [tags] using hknown
      obtain rfl := htags.resolve_left htag
      exact ⟨body, hsaid, hgiven⟩
  · rintro ⟨body, hsaid, hgiven⟩
    cases t with
    | index jobId c =>
      have hknown : tags.contains "index" = true := by decide
      refine ⟨⟨"index", body⟩, Tagged.ofJson_eq_ok_iff.2 ⟨hknown, hsaid⟩, (if_pos rfl).trans ?_⟩
      exact accept_index_iff_givenBy.2 ⟨jobId, c, rfl, hgiven⟩
    | shutdown =>
      have hknown : tags.contains "shutdown" = true := by decide
      have hindex : "shutdown" ≠ "index" := by decide
      refine ⟨⟨"shutdown", body⟩, Tagged.ofJson_eq_ok_iff.2 ⟨hknown, hsaid⟩, (if_neg hindex).trans ?_⟩
      exact acceptShutdown_iff_givenBy.2 ⟨rfl, hgiven⟩

end Queue.Task

end IndexFeed
