import IndexFeed.Proofs.Json.FloatRange
import IndexFeed.Proofs.Json.Keeping
import IndexFeed.Proofs.Database.Agreement
import IndexFeed.Proofs.Queue.Store

/-!
# Arbitrary values through a queue

A queue takes values of any depth, but what is received is decoded, and the decoder goes 127 brackets
deep and reads floats in its own way.  Within these bounds, a value comes out of a queue as it went
in, in normal form.
-/

set_option autoImplicit false

namespace IndexFeed

open Json (Object Written Form deepest nesting Number NumberWritten)
open Utf8 (encodeChars)

namespace Json

variable {n : Nat} {j : Json} {p : Bytes} {f : Number → Number}

/-! ## Depth -/

/-- The depth of a form. -/
def Form.depth : Form → Nat
  | .value j => j.depth
  | .items js => itemDepth js
  | .members ms => memberDepth ms

/-- A text has room for the brackets of what it writes. -/
theorem Written.depth_le {form : Form} (h : Written n form p) : form.depth ≤ n := by
  induction h with
  | null | truth | falsity | number | string => exact Nat.zero_le _
  | emptyArray | emptyObject => exact Nat.succ_le_succ (Nat.zero_le _)
  | array _ ih | object _ ih => exact Nat.succ_le_succ ih
  | lastItem _ _ _ ih | lastMember _ _ _ _ _ _ ih => exact Nat.max_le.2 ⟨ih, Nat.zero_le _⟩
  | item _ _ _ _ ih ih' | member _ _ _ _ _ _ _ ih ih' => exact Nat.max_le.2 ⟨ih, ih'⟩

mutual

theorem depth_mapNumbers (f : Number → Number) (j : Json) : (j.mapNumbers f).depth = j.depth := by
  cases j with
  | null | bool | number | string => rfl
  | array items => exact congrArg (· + 1) (itemDepth_mapItems f items)
  | object members => exact congrArg (· + 1) (memberDepth_mapMembers f members)

theorem itemDepth_mapItems (f : Number → Number) (js : List Json) :
    itemDepth (mapItems f js) = itemDepth js := by
  cases js with
  | nil => rfl
  | cons j js => rw [mapItems, itemDepth, depth_mapNumbers f j, itemDepth_mapItems f js, itemDepth]

theorem memberDepth_mapMembers (f : Number → Number) (ms : Object) :
    memberDepth (mapMembers f ms) = memberDepth ms := by
  cases ms with
  | nil => rfl
  | cons m ms =>
    rw [mapMembers, memberDepth, depth_mapNumbers f m.2, memberDepth_mapMembers f ms, memberDepth]

end

/-! ## Numbers -/

/-- The number that is read from the text of a number. -/
def Number.reread : Number → Number
  | .integer i hleast hmost => .integer i hleast hmost
  | .float x => .float x.reread

theorem numberWritten_reread (x : Number) : NumberWritten x.reread (encodeChars x.chars) := by
  cases x with
  | integer i hleast hmost => exact numberWritten_integer i hleast hmost
  | float x => exact x.numberWritten_chars x.reread?_eq

mutual

/-- A function that changes a number of a value changes the value. -/
theorem eq_of_mapNumbers (j : Json) (h : j.mapNumbers f = j) : ∀ x ∈ j.numbers, f x = x := by
  cases j with
  | null | bool | string => exact List.forall_mem_nil _
  | number x =>
    rw [mapNumbers, Json.number.injEq] at h
    exact List.forall_mem_singleton.2 h
  | array items =>
    rw [mapNumbers, Json.array.injEq] at h
    exact eq_of_mapItems items h
  | object members =>
    rw [mapNumbers, Json.object.injEq] at h
    exact eq_of_mapMembers members h

theorem eq_of_mapItems (js : List Json) (h : mapItems f js = js) :
    ∀ x ∈ itemNumbers js, f x = x := by
  cases js with
  | nil => exact List.forall_mem_nil _
  | cons j js =>
    rw [mapItems, List.cons.injEq] at h
    rw [itemNumbers, List.forall_mem_append]
    exact ⟨eq_of_mapNumbers j h.1, eq_of_mapItems js h.2⟩

theorem eq_of_mapMembers (ms : Object) (h : mapMembers f ms = ms) :
    ∀ x ∈ memberNumbers ms, f x = x := by
  cases ms with
  | nil => exact List.forall_mem_nil _
  | cons m ms =>
    rw [mapMembers, List.cons.injEq, Prod.ext_iff] at h
    rw [memberNumbers, List.forall_mem_append]
    exact ⟨eq_of_mapNumbers m.2 h.1.2, eq_of_mapMembers ms h.2⟩

end

theorem insertNew_mapMembers (f : Number → Number) (key : String) (j : Json) (ms : Object) :
    Object.insertNew key (j.mapNumbers f) (mapMembers f ms) =
      mapMembers f (Object.insertNew key j ms) := by
  induction ms with
  | nil => rfl
  | cons m ms ih =>
    obtain ⟨k, v⟩ := m
    rw [mapMembers, Object.insertNew, Object.insertNew, ih]
    split
    · rfl
    · split
      · rfl
      · rfl

mutual

/-- Keys do not depend on numbers, and so the normal form does not. -/
theorem normal_mapNumbers (f : Number → Number) (j : Json) :
    (j.mapNumbers f).normal = j.normal.mapNumbers f := by
  cases j with
  | null | bool | number | string => rfl
  | array items => exact congrArg Json.array (normalItems_mapItems f items)
  | object members => exact congrArg Json.object (normalMembers_mapMembers f members)

theorem normalItems_mapItems (f : Number → Number) (js : List Json) :
    normalItems (mapItems f js) = mapItems f (normalItems js) := by
  cases js with
  | nil => rfl
  | cons j js =>
    rw [mapItems, normalItems, normal_mapNumbers f j, normalItems_mapItems f js, normalItems, mapItems]

theorem normalMembers_mapMembers (f : Number → Number) (ms : Object) :
    normalMembers (mapMembers f ms) = mapMembers f (normalMembers ms) := by
  cases ms with
  | nil => rfl
  | cons m ms =>
    rw [mapMembers, normalMembers, normal_mapNumbers f m.2, normalMembers_mapMembers f ms,
      insertNew_mapMembers, normalMembers]

end

/-- The compact text of a value nests as deep as the value. -/
theorem nesting_chars (j : Json) : nesting (encodeChars j.chars) = j.depth := by
  have hwritten := written_chars j fun x _ => numberWritten_reread x
  obtain ⟨w, hle, hnests, hwritten⟩ := hwritten.tight
  have hdepth : (j.mapNumbers Number.reread).depth ≤ w := hwritten.depth_le
  rw [depth_mapNumbers] at hdepth
  rw [hnests.nesting_eq]
  exact Nat.le_antisymm hle hdepth

end Json

namespace Queue

open Store (encode decode)

variable {V : Json}

/-- What is decoded of the text of a value that is not too deep. -/
theorem decode_encode (hdepth : V.depth ≤ deepest) :
    decode Json.Shape.any.decode (encode V) = .ok (V.mapNumbers Number.reread).normal := by
  have hwritten := Json.written_chars V fun x _ => Json.numberWritten_reread x
  refine Database.decode_any_eq_ok_iff.2 ⟨_, ?_, rfl⟩
  have hblanks : Json.Cursor.Blanks [] := List.forall_mem_nil _
  exact ⟨[], _, [], hblanks, hwritten.mono hdepth, hblanks, (List.append_nil _).symm⟩

/-- A text that is no value is no JSON. -/
theorem decode_any_error {m : Bytes} {e : Error} (h : decode Json.Shape.any.decode m = .error e) :
    ∃ reason, e = .notJson reason := by
  unfold decode at h
  split at h
  · cases h
  · next reason hparse =>
    have hkeeps : Json.Shape.any.decode.Keeps m.length 0 (fun _ _ => True) [] :=
      (Json.Decoder.keeps_value deepest m.length []).gather fun _ _ _ => trivial
    obtain ⟨f, hquotes, rfl⟩ := hkeeps.parse_error hparse
    split at h
    · next hcategory =>
      have hplain := hquotes.plain
      exact absurd hcategory hplain
    · cases h
      exact ⟨_, rfl⟩

/-- A value that is too deep is not decoded. -/
theorem decode_encode_deep (hdepth : deepest < V.depth) :
    ∃ reason, decode Json.Shape.any.decode (encode V) = .error (.notJson reason) := by
  cases hdecode : decode Json.Shape.any.decode (encode V) with
  | ok j =>
    obtain ⟨k, hdocument, -⟩ := Database.decode_any_eq_ok_iff.1 hdecode
    have hle := Database.nesting_le_of_document hdocument
    rw [encode, Json.nesting_chars] at hle
    exact absurd hdepth (Nat.not_lt.2 hle)
  | error e =>
    obtain ⟨reason, rfl⟩ := decode_any_error hdecode
    exact ⟨reason, rfl⟩

/-- A value in normal form is decoded of its own text just if nothing stands in the way. -/
theorem decode_encode_eq_iff (hV : V.normal = V) :
    decode Json.Shape.any.decode (encode V) = .ok V ↔
      V.depth ≤ deepest ∧ ∀ x, .float x ∈ V.numbers → x.reread = x := by
  constructor
  · intro h
    by_cases hdepth : V.depth ≤ deepest
    · rw [decode_encode hdepth, Json.normal_mapNumbers, hV, Except.ok.injEq] at h
      refine ⟨hdepth, fun x hx => ?_⟩
      have hsame := Json.eq_of_mapNumbers V h _ hx
      rwa [Number.reread, Number.float.injEq] at hsame
    · obtain ⟨reason, herror⟩ := decode_encode_deep (Nat.lt_of_not_le hdepth)
      rw [herror] at h
      cases h
  · rintro ⟨hdepth, hfloats⟩
    have hself : V.mapNumbers Number.reread = V := Json.mapNumbers_eq_self V fun x hx => by
      cases x with
      | integer => rfl
      | float x => rw [Number.reread, hfloats x hx]
    rw [decode_encode hdepth, hself, hV]

variable {s s' : Store} {k h : Handle} {events : List Event}

theorem send_of_le (hV : (encode V).length ≤ k.maxMessageSize) :
    s.send k V = (.ok (), s.push k.queue (encode V), [.sent k.name (encode V).length]) :=
  Store.sendBytes_of_le hV

/-- The only message of a queue is received. -/
theorem receive_sent {α : Type} {m : Bytes} {D : Json.Decoder α} (hq : s.Has k.queue)
    (hempty : s.pending k.queue = []) (hh : h.queue = k.queue) (wait : Span) :
    (s.push k.queue m).receive h D wait =
      (decode D m, (s.push k.queue m).setPending h.queue [], [.received h.name m.length]) := by
  have hpending : (s.push k.queue m).pending h.queue = [m] := by
    rw [hh, Store.pending_push hq, hempty, List.nil_append]
  exact Store.receive_of_cons hpending

/-- **Values come back, as far as the decoder goes.** A value that a queue with nothing in it has
taken is received at any handle on that queue, with each float as it is read from its text, and leaves
the queue empty.  If the value is deeper than the decoder goes, what is received is no JSON.  So a
value in normal form comes back as itself if and only if it is not too deep and each of its floats is
read as itself. -/
theorem value_returns (hq : s.Has k.queue) (hempty : s.pending k.queue = [])
    (hh : h.queue = k.queue) (wait : Span) (hsend : s.send k V = (.ok (), s', events)) :
    let (res, t, _) := s'.receive h Json.Shape.any.decode wait
    t.pending k.queue = [] ∧
      (V.depth ≤ deepest → res = .ok (V.mapNumbers Number.reread).normal) ∧
      (deepest < V.depth → ∃ reason, res = .error (.notJson reason)) ∧
      (V.normal = V → (res = .ok V ↔
        V.depth ≤ deepest ∧ ∀ x, .float x ∈ V.numbers → x.reread = x)) := by
  obtain ⟨-, rfl⟩ := Store.sendBytes_ok hsend
  rw [receive_sent hq hempty hh wait]
  refine ⟨?_, decode_encode, decode_encode_deep, decode_encode_eq_iff⟩
  rw [hh, Store.pending_setPending (Store.has_push.2 hq)]

/-- One half in an array in an object. -/
theorem value_returns_half :
    let half : Binary64 := ⟨false, 0x10000000000000, 1021, by decide, by decide, .inl (by decide)⟩
    let V : Json := .object [("a", .array [.number (.float half), .null]), ("b", .string "\n")]
    let s : Store := ⟨[⟨1, 64, []⟩], [("/values", 0)]⟩
    let k : Handle := ⟨0, "/values", .createOnly, 64⟩
    let h : Handle := ⟨0, "/values", .openOnly, 64⟩
    s.Has k.queue ∧ s.pending k.queue = [] ∧ h.queue = k.queue ∧ ∃ s' events,
      s.send k V = (.ok (), s', events) ∧
        (s'.receive h Json.Shape.any.decode .zero).1 = .ok V := by
  intro half V s k h
  have hs : s.Has k.queue := Nat.zero_lt_one
  have hsend := send_of_le (s := s) (k := k) (V := V) (by decide +kernel)
  obtain ⟨-, -, -, hiff⟩ := value_returns (h := h) hs rfl rfl .zero hsend
  refine ⟨hs, rfl, rfl, _, _, hsend, (hiff (by decide +kernel)).2 ⟨by decide +kernel, ?_⟩⟩
  intro x hx
  obtain rfl : x = half := by simpa [V, Json.numbers, Json.memberNumbers, Json.itemNumbers] using hx
  decide +kernel

/-- What is decoded of the text of a value comes out of the first queue that is made. -/
theorem received_of_decoded {W : Json} (hV : (encode V).length ≤ 8192)
    (hW : decode Json.Shape.any.decode (encode V) = .ok W) :
    ∃ k s₁ made h opened s₂ sent, Store.create {} "q" {} = (.ok k, s₁, made) ∧
      s₁.pending k.queue = [] ∧ s₁.openNamed "q" = (.ok h, opened) ∧
      s₁.send k V = (.ok (), s₂, sent) ∧
      (s₂.receive h Json.Shape.any.decode .zero).1 = .ok W := by
  let s : Store := ⟨[⟨10, 8192, []⟩], [("/q", 0)]⟩
  let k : Handle := ⟨0, "/q", .createOnly, 8192⟩
  let h : Handle := ⟨0, "/q", .openOnly, 8192⟩
  have hs : s.Has k.queue := Nat.zero_lt_one
  have hreceive := receive_sent (m := encode V) (D := Json.Shape.any.decode) (h := h) hs rfl rfl .zero
  refine ⟨k, s, _, h, _, _, _, rfl, rfl, rfl, send_of_le hV, ?_⟩
  rw [hreceive, hW]

/-- A number of which another one comes back: what `1e-28` is read as, in a queue that has just been
made. -/
theorem value_changes :
    let x : Binary64 := ⟨false, 0x1fb0f6be50601a, 928, by decide, by decide, .inl (by decide)⟩
    let y : Binary64 := ⟨false, 0x1fb0f6be506018, 928, by decide, by decide, .inl (by decide)⟩
    String.ofList x.chars = "1.0000000000000001e-28" ∧
      String.ofList y.chars = "9.999999999999999e-29" ∧ y ≠ x ∧ ∃ k s₁ made h opened s₂ sent,
      Store.create {} "q" {} = (.ok k, s₁, made) ∧ s₁.pending k.queue = [] ∧
      s₁.openNamed "q" = (.ok h, opened) ∧
      s₁.send k (.number (.float x)) = (.ok (), s₂, sent) ∧
      (s₂.receive h Json.Shape.any.decode .zero).1 = .ok (.number (.float y)) := by
  intro x y
  have hreread : x.reread = y := by decide +kernel
  have hother : y ≠ x := by decide
  refine ⟨by decide +kernel, by decide +kernel, hother, received_of_decoded (by decide +kernel) ?_⟩
  rw [← hreread]
  exact decode_encode (V := .number (.float x)) (Nat.zero_le _)

end Queue

end IndexFeed
