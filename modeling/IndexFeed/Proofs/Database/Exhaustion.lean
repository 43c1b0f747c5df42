import IndexFeed.Proofs.Database.Calls
import IndexFeed.Proofs.Database.Horizon

/-!
# How a feed comes to its end

A feed is exhausted by the call that hands out the last object of its database, and not by the one
behind it.  `Feed.servings` are the calls that drain a feed, and `Feed.Drain` is what they come to on
a database that the reader accepts: every call but the last hands out a full batch and leaves an
object, and the last one leaves none.  How many calls there are follows from that by induction.
-/

set_option autoImplicit false

namespace IndexFeed.Database

open Json (Object)
open Collector (wellFormed)

/-! ## Readers behind a halt and behind the end -/

namespace Reader

variable {σ : Type} {h : Handler σ} {r r' z : Reader} {s t : σ}

/-- Behind an object comes a comma or the end of the array. -/
theorem expect_of_object {o : Object} (hm : step .note r none = .proceed r' (some o)) :
    r'.expect = .nextElement := by
  obtain ⟨source, -, hshape⟩ := r.step_shape
  rw [hm] at hshape
  cases hshape
  rfl

/-- A step halts behind an object. -/
theorem expect_of_halt (hs : step h r s = .halt r' t) : r'.expect = .nextElement := by
  rw [step_eq_under] at hs
  cases hm : step .note r none with
  | proceed q found =>
    rw [hm] at hs
    cases found with
    | none => cases hs
    | some o =>
      rw [Step.under] at hs
      split at hs
      · cases hs
      · cases hs
        exact expect_of_object hm
  | halt q found => exact absurd hm (step_note_ne_halt r q found)
  | finish q found | fail e q found =>
    rw [hm] at hs
    cases hs

theorem expect_of_runSteps_halted (hr : runSteps h r s = (.ok .halted, z, t)) :
    z.expect = .nextElement := by
  fun_induction runSteps h r s with
  | case1 r s r₁ s₁ hs ih => exact ih hr
  | case2 r s r₁ s₁ hs =>
    cases hr
    exact expect_of_halt hs
  | case3 | case4 => cases hr

theorem finished_of_runSteps (hr : runSteps h r s = (.ok .finished, z, t)) :
    z.finished = true := by
  fun_induction runSteps h r s with
  | case1 r s r₁ s₁ hs ih => exact ih hr
  | case3 r s r₁ s₁ hs =>
    cases hr
    rfl
  | case2 | case4 => cases hr

/-- A run halts behind an object. -/
theorem expect_of_halted (hr : r.run h s = (.ok .halted, z, t)) : z.expect = .nextElement := by
  unfold run at hr
  split at hr
  · cases hr
  · split at hr
    · cases hr
    · exact expect_of_runSteps_halted hr

/-- Behind the end of the document there are no more objects. -/
theorem delivery_of_finished (hr : r.run h s = (.ok .finished, z, t)) : z.delivery.2.2 = [] := by
  have hz : z.finished = true := by
    unfold run at hr
    split at hr
    · cases hr
    · split at hr
      · next hfin =>
        cases hr
        exact hfin
      · exact finished_of_runSteps hr
  obtain ⟨x, -, hrun⟩ := exists_run_of_not_active (r := z) fun ha => by simp [ha.1] at hz
  rw [delivery, hrun]

/-- A run over a reader that has no more objects leaves the state of its handler alone. -/
theorem run_of_no_delivery (hr : r.delivery.2.2 = []) (h : Handler σ) (s : σ) :
    r.run h s = (r.delivery.1, r.delivery.2.1, s) := by
  have hspec := run_spec h r s
  rwa [hr] at hspec

/-- A reader that has no more objects does not halt. -/
theorem run_ne_halted (hr : r.delivery.2.2 = []) : (r.run h s).1 ≠ .ok .halted := by
  rw [run_of_no_delivery hr]
  exact delivery_ne_halted r

/-- A collector halts the reader where its batch is full. -/
theorem isFull_of_halted {c c' : Collector} (hr : r.run Collector.handler c = (.ok .halted, z, c')) :
    c'.isFull = true := by
  have hspec := run_spec Collector.handler r c
  rcases hf : Collector.handler.feed c r.delivery.2.2 with ⟨t, _ | left⟩
  · rw [hf, hr] at hspec
    exact absurd (congrArg Prod.fst hspec).symm (delivery_ne_halted r)
  · rw [hf, hr] at hspec
    obtain ⟨r', hrun, -⟩ := hspec
    cases hrun
    obtain ⟨pre, o, -, rfl, hhalts⟩ := Handler.feed_some hf
    simpa [Collector.handler] using hhalts

/-- Behind an object, a text that comes to its end without another object goes on with the closing
bracket. -/
theorem nextClosesRoot_of_delivery (ha : z.Active) (he : z.expect = .nextElement)
    (hend : z.delivery.1 = .ok .finished) (hnone : z.delivery.2.2 = []) :
    z.nextClosesRoot.1 = .ok true := by
  obtain ⟨raw, hremains, hraw⟩ := remains_of_delivery ha hend hnone
  obtain rfl := List.map_eq_nil_iff.1 hraw.symm
  rw [he] at hremains
  generalize hp : z.source.rest = p at hremains
  cases hremains with
  | framing hframe hblanks hrest =>
    cases hframe with
    -- an object has to follow a comma
    | separator => cases hrest with | framing hframe _ _ => cases hframe
    | close =>
      obtain ⟨source, htok, -⟩ :=
        nextToken_of_cons (Json.Cursor.rest_skipBlanks (c := z.source.cursor) hblanks hp rfl)
      simp [nextClosesRoot, ha.1, ha.2, he, htok]

/-- Where an object may be followed by the end of the array and is not, another one is left, if the
document is valid. -/
theorem Owes.ne_nil {left : List Object} (ho : z.Owes left (.ok .finished))
    (he : z.expect = .nextElement) (hlook : z.nextClosesRoot.1 = .ok false) : left ≠ [] := by
  rintro rfl
  rw [nextClosesRoot_of_delivery ho.active he ho.ends ho.objects] at hlook
  cases hlook

end Reader

namespace Feed

variable {f g : Feed} {r : Nat} {b : Binding} {z : Reader} {c : Collector} {os left : List Object}
  {ending : Except Error Outcome} {n : Nat} {batch : List CompileCommand} {events : List Event}

/-! ## One call -/

/-- The objects that the reader of a feed has still to deliver. -/
def unread (f : Feed) : List Object :=
  match f.binding with
  | some b => b.reader.delivery.2.2
  | none => []

/-- A batch that comes to the end of the document leaves no object. -/
theorem delivery_of_readBatch_finished (hr : readBatch b = (.ok .finished, z, c)) :
    z.delivery.2.2 = [] := by
  unfold readBatch at hr
  split at hr
  next hrun =>
  split at hr
  · split at hr
    · split at hr
      · exact Reader.delivery_of_finished hr
      · cases hr
      · cases hr
    · cases hr
  · cases hr
    exact Reader.delivery_of_finished hrun

/-- A batch that stops before the end of a valid document leaves an object. -/
theorem ne_nil_of_readBatch_halted (hr : readBatch b = (.ok .halted, z, c))
    (hleft : z.Owes left (.ok .finished)) : left ≠ [] := by
  rcases hrun : b.reader.run Collector.handler (b.collector.begin (some b.refill)) with ⟨x, y, c'⟩
  have hx : x = .ok .halted := by
    refine Classical.byContradiction fun hne => hne ?_
    rw [readBatch_of_ne_halted hrun hne] at hr
    exact congrArg Prod.fst hr
  subst hx
  have hfull := Reader.isFull_of_halted hrun
  rcases hlook : y.nextClosesRoot with ⟨answer, w⟩
  have hview : w.view = y.view := by
    have := y.view_nextClosesRoot
    rwa [hlook] at this
  simp only [readBatch, hrun, if_pos hfull, hlook] at hr
  rcases answer with e | _ | _
  · cases hr
  · cases hr
    exact (hleft.of_view_eq hview.symm).ne_nil (Reader.expect_of_halted hrun)
      (congrArg Prod.fst hlook)
  · -- the array closes, so that the batch has run on to the end
    have hnil : w.delivery.2.2 = [] := by
      rw [(Reader.delivery_congr hview).2]
      exact Reader.delivery_of_nextClosesRoot (congrArg Prod.fst hlook)
    exact absurd (congrArg Prod.fst hr) (Reader.run_ne_halted hnil)

/-- A call without an error, in terms of the batch that it reads. -/
theorem next_ok_inv (hex : f.exhausted = false) (hn : f.next = (.ok n, batch, g, events)) :
    ∃ b outcome z c, f.binding = some b ∧ readBatch b = (.ok outcome, z, c) ∧
      g = f.behind b z c (outcome == .finished) := by
  unfold next at hn
  split at hn
  · cases hn
  · next b hb =>
    rw [if_neg (by simp [hex])] at hn
    rcases hr : readBatch b with ⟨e | outcome, z, c⟩
    · rw [hr] at hn
      cases hn
    · rw [hr] at hn
      cases hn
      exact ⟨b, outcome, z, c, hb, hr, rfl⟩

/-- A feed that is not exhausted, with batches of `r` commands, of a valid document of which these
objects are left. -/
structure Open (f : Feed) (r : Nat) (os : List Object) : Prop where
  exhausted : f.exhausted = false
  bound : ∃ b, f.binding = some b ∧ b.refill = r ∧ b.reader.Owes os (.ok .finished)

theorem Open.unread (h : f.Open r os) : f.unread = os := by
  obtain ⟨-, b, hb, -, hreader⟩ := h
  simp [Feed.unread, hb, hreader.objects]

/-- **What one call comes to.** It takes objects from what is left and hands out the well-formed
commands among them.  Either they are all of them and the feed is exhausted, or the batch is full and
the feed goes on with the others, of which there is at least one. -/
theorem Open.next (h : f.Open r os) (hr : 0 < r) :
    ∃ taken left g events, os = taken ++ left ∧
      f.next = (.ok (wellFormed taken).length, wellFormed taken, g, events) ∧ g.unread = left ∧
      (left = [] ∧ g.exhausted = true ∧ (wellFormed taken).length ≤ r ∨
        left ≠ [] ∧ g.Open r left ∧ (wellFormed taken).length = r) := by
  obtain ⟨hex, b, hb, rfl, ho⟩ := h
  obtain ⟨taken, left, c, z, ended, result, events, hos, hc, hle, hnext, hend⟩ :=
    next_takes hb hex hr ho
  have hcommands : c.commands = wellFormed taken := by rw [hc, Collector.commands_batch]
  have hresult : result = .ok c.commands.length := by
    rcases hend with ⟨-, -, h⟩ | ⟨-, -, h, -⟩ <;> exact h
  rw [hresult] at hnext
  obtain ⟨b', outcome, z', c', hb', hbatch, hbehind⟩ := next_ok_inv hex hnext
  obtain ⟨hz, hended⟩ : z = z' ∧ ended = (outcome == .finished) := by
    simp only [behind, Feed.mk.injEq, Option.some.injEq, Binding.mk.injEq] at hbehind
    exact ⟨hbehind.2.1.1, hbehind.2.2⟩
  obtain rfl : b' = b := by simpa [hb] using hb'.symm
  subst hz hended
  rw [hcommands] at hnext hle hend
  refine ⟨taken, left, _, events, hos, hnext, ?_⟩
  cases outcome with
  | finished =>
    rcases hend with ⟨rfl, -, -⟩ | ⟨-, hno, -⟩
    · exact ⟨delivery_of_readBatch_finished hbatch, .inl ⟨rfl, rfl, hle⟩⟩
    · cases hno
  | halted =>
    rcases hend with ⟨-, hno, -⟩ | ⟨hleft, -, -, hfull⟩
    · cases hno
    · exact ⟨hleft.objects, .inr ⟨ne_nil_of_readBatch_halted hbatch hleft,
        ⟨rfl, _, rfl, rfl, hleft⟩, hfull⟩⟩

/-! ## All calls -/

/-- One call for a batch. -/
structure Serving where
  /-- the feed that is asked -/
  before : Feed
  /-- how many commands it says it hands out, or the error -/
  result : Except Error Nat
  batch : List CompileCommand
  /-- the feed behind the call -/
  behind : Feed
  deriving Repr

/-- The calls that drain a feed: one behind the other, until the feed is exhausted or one fails. -/
def servings (f : Feed) : List Serving :=
  match _h : f.next with
  | (.error e, batch, g, _) => [⟨f, .error e, batch, g⟩]
  | (.ok n, batch, g, _) =>
    ⟨f, .ok n, batch, g⟩ :: if _hg : g.exhausted then [] else servings g
termination_by f.left
decreasing_by exact next_lt ‹_› (Bool.eq_false_iff.2 ‹_›)

/-- The call takes these objects and leaves those. -/
structure Serving.Takes (s : Serving) (taken left : List Object) : Prop where
  before : s.before.unread = taken ++ left
  result : s.result = .ok s.batch.length
  batch : s.batch = wellFormed taken
  behind : s.behind.unread = left

/-- What the calls come to that drain a feed of a valid document, in batches of `r` commands: one
constructor for the last call, and one for a call with others behind it. -/
inductive Drain (r : Nat) : List Object → List Serving → Prop where
  | last {s : Serving} {os : List Object} : s.Takes os [] → s.behind.exhausted = true →
      s.batch.length ≤ r → Drain r os [s]
  | more {s : Serving} {ss : List Serving} {taken left : List Object} : s.Takes taken left →
      left ≠ [] → s.behind.exhausted = false → s.batch.length = r → Drain r left ss →
      Drain r (taken ++ left) (s :: ss)

/-- A feed of a valid document is drained. -/
theorem Open.drain (h : f.Open r os) (hr : 0 < r) : Drain r os f.servings := by
  fun_induction servings f generalizing os with
  | case1 f e batch g events hn =>
    obtain ⟨taken, left, g', events', -, hn', -⟩ := h.next hr
    rw [hn] at hn'
    cases hn'
  | case2 f n batch g events hn ih =>
    obtain ⟨taken, left, g', events', rfl, hn', hg, hend⟩ := h.next hr
    rw [hn] at hn'
    cases hn'
    have htakes : Serving.Takes ⟨f, .ok (wellFormed taken).length, wellFormed taken, g⟩ taken left :=
      ⟨h.unread, rfl, rfl, hg⟩
    rcases hend with ⟨rfl, hex, hle⟩ | ⟨hne, hleft, hfull⟩
    · rw [dif_pos hex, List.append_nil]
      exact .last htakes hex hle
    · have hex := hleft.exhausted
      rw [dif_neg (by simp [hex])]
      exact .more htakes hne hex hfull (ih (by simp [hex]) hleft)

namespace Drain

variable {ss : List Serving}

/-- All batches but the last are full.  The last one is not empty if all objects are well-formed,
since the call in front of it has left one. -/
theorem length (h : Drain r os ss) :
    ∃ n, ss.length = n + 1 ∧ n * r ≤ (wellFormed os).length ∧
      (wellFormed os).length ≤ (n + 1) * r ∧
      (os ≠ [] → (∀ o ∈ os, (CompileCommand.ofObject? o).isSome) →
        n * r < (wellFormed os).length) := by
  induction h with
  | @last s os ht hex hle =>
    rw [ht.batch] at hle
    refine ⟨0, rfl, by simp, by simpa using hle, ?_⟩
    intro hne hall
    obtain ⟨o, ho⟩ := List.exists_mem_of_ne_nil os hne
    obtain ⟨c, hc⟩ := Option.isSome_iff_exists.1 (hall o ho)
    rw [Nat.zero_mul]
    exact List.length_pos_of_mem (List.mem_filterMap.2 ⟨o, ho, hc⟩)
  | @more s ss taken left ht hne hex hfull hdrain ih =>
    obtain ⟨n, hn, hlow, hhigh, hlt⟩ := ih
    rw [ht.batch] at hfull
    rw [Collector.wellFormed_append, List.length_append, hfull]
    refine ⟨n + 1, by rw [List.length_cons, hn], ?_, ?_, ?_⟩
    · rw [Nat.succ_mul]
      omega
    · rw [Nat.succ_mul]
      omega
    · intro _ hall
      have := hlt hne fun o ho => hall o (List.mem_append_right _ ho)
      rw [Nat.succ_mul]
      omega

theorem length_le (h : Drain r os ss) (hr : 0 < r) :
    ss.length ≤ (wellFormed os).length / r + 1 := by
  obtain ⟨n, hn, hlow, -, -⟩ := h.length
  rw [hn]
  exact Nat.succ_le_succ ((Nat.le_div_iff_mul_le hr).2 hlow)

theorem length_eq (h : Drain r os ss) (hr : 0 < r) (hpos : 0 < (wellFormed os).length)
    (hall : ∀ o ∈ os, (CompileCommand.ofObject? o).isSome) :
    ss.length = ((wellFormed os).length + r - 1) / r := by
  have hne : os ≠ [] := by
    rintro rfl
    exact Nat.lt_irrefl 0 hpos
  obtain ⟨n, hn, -, hhigh, hlt⟩ := h.length
  have hlow := hlt hne hall
  rw [hn]
  symm
  apply Nat.div_eq_of_lt_le
  · rw [Nat.succ_mul]
    omega
  · rw [Nat.succ_mul]
    omega

end Drain

/-- How a call for a batch of `r` commands stands among the calls that drain a feed of these objects:
behind the calls in `pre` and in front of those in `post`. -/
structure Serving.Fits (r : Nat) (os : List Object) (pre : List Serving) (s : Serving)
    (post : List Serving) : Prop where
  counts : s.result = .ok s.batch.length
  /-- it hands out the well-formed commands of the objects that it takes, and those objects stand
  behind the ones that the calls before it have taken -/
  takes : ∃ given taken, os = given ++ (taken ++ s.behind.unread) ∧
    s.before.unread = taken ++ s.behind.unread ∧ pre.flatMap Serving.batch = wellFormed given ∧
      s.batch = wellFormed taken
  exhausted_iff : s.behind.exhausted = true ↔ s.behind.unread = []
  full : post ≠ [] → s.batch.length = r
  /-- an empty batch says that no object that was left is well-formed, and that one was left unless
  there are none at all -/
  empty : s.batch = [] → (os = [] ∨ s.before.unread ≠ []) ∧
    ∀ o ∈ s.before.unread, CompileCommand.ofObject? o = none

/-- How a call stands behind one more call. -/
theorem Serving.Fits.behind {s s₀ : Serving} {pre post : List Serving} {taken left : List Object}
    (h : s.Fits r left pre post) (ht : s₀.Takes taken left) (hne : left ≠ []) :
    s.Fits r (taken ++ left) (s₀ :: pre) post where
  counts := h.counts
  takes := by
    obtain ⟨given, taken', rfl, hbefore, hpre, hbatch⟩ := h.takes
    refine ⟨taken ++ given, taken', by simp, hbefore, ?_, hbatch⟩
    rw [List.flatMap_cons, hpre, ht.batch, Collector.wellFormed_append]
  exhausted_iff := h.exhausted_iff
  full := h.full
  empty := by
    intro hempty
    obtain ⟨hleft, hall⟩ := h.empty hempty
    exact ⟨.inr (hleft.resolve_left hne), hall⟩

/-- Every call of a drain stands so. -/
theorem Drain.fits {ss : List Serving} (h : Drain r os ss) (hr : 0 < r) {pre post : List Serving}
    {s : Serving} (hss : ss = pre ++ s :: post) : s.Fits r os pre post := by
  induction h generalizing pre with
  | @last s₀ os ht hex hle =>
    obtain ⟨rfl, h⟩ | ⟨t, rfl, h⟩ := List.cons_eq_append_iff.1 hss
    · cases h
      refine ⟨ht.result, ⟨[], os, ?_, ?_, rfl, ht.batch⟩, iff_of_true hex ht.behind,
        fun hno => absurd rfl hno, ?_⟩
      · rw [ht.behind, List.append_nil, List.nil_append]
      · rw [ht.before, ht.behind]
      · intro hempty
        rw [ht.batch] at hempty
        rw [ht.before, List.append_nil]
        exact ⟨Classical.em _, List.filterMap_eq_nil_iff.1 hempty⟩
    · cases t <;> cases h
  | @more s₀ ss taken left ht hne hex hfull hdrain ih =>
    obtain ⟨rfl, h⟩ | ⟨t, rfl, h⟩ := List.cons_eq_append_iff.1 hss
    · cases h
      have hbehind : s.behind.unread ≠ [] := ht.behind ▸ hne
      refine ⟨ht.result, ⟨[], taken, ?_, ?_, rfl, ht.batch⟩, iff_of_false (by simp [hex]) hbehind,
        fun _ => hfull, ?_⟩
      · rw [ht.behind, List.nil_append]
      · rw [ht.before, ht.behind]
      · intro hempty
        rw [hempty] at hfull
        exact absurd hfull (Nat.ne_of_lt hr)
    · exact (ih h).behind ht hne

/-- **A feed is exhausted as early as possible.** Take any file that the reader accepts, any buffer that
the machine has the memory for and any size of a batch, and drain a feed of that file.

* Each call hands out the well-formed commands of some objects, where the calls before it have
  stopped, and behind it the feed is exhausted if and only if no object is left.
* Every batch but the last is full.
* There are at most as many calls as full batches fit into the commands, and one more; and just
  enough for all commands if there are any and no object is malformed.
* A batch is empty only where every object that was left is malformed or the array is empty. -/
theorem exhausted_at_last_object {m : Memory} {file : File}
    (haccepted : file.reading.1 = .ok .finished) (buffer : m.Buffer) (refill : Nat) :
    let r := max refill 1
    let os := file.reading.2.2
    let w := (wellFormed os).length
    ∃ f, ({ buffer := buffer.size } : Feed).bind file refill = .ok f ∧
      (∀ pre s post, f.servings = pre ++ s :: post → s.Fits r os pre post) ∧
      f.servings.length ≤ w / r + 1 ∧
      (0 < w → (∀ o ∈ os, (CompileCommand.ofObject? o).isSome) →
        f.servings.length = (w + r - 1) / r) := by
  intro r os w
  have hr : 0 < r := Nat.lt_of_lt_of_le Nat.one_pos (Nat.le_max_right refill 1)
  obtain ⟨b, hbind, hrefill, -, howes⟩ :=
    bind_spec (f := { buffer := buffer.size }) rfl file refill
  have hopen : Open { buffer := buffer.size, binding := some b } r os :=
    ⟨rfl, b, rfl, hrefill, haccepted ▸ howes⟩
  have hdrain := hopen.drain hr
  exact ⟨_, hbind, fun pre s post h => hdrain.fits hr h, hdrain.length_le hr,
    fun hpos hall => hdrain.length_eq hr hpos hall⟩

/-- A database with a malformed object behind a full batch is drained by two calls at most. -/
theorem exhausted_at_malformed_object :
    let c : CompileCommand := { directory := "/w", file := "a.c", command := some "cc a.c" }
    let entry := Utf8.encodeChars c.toJson.chars ++ [Octet.comma]
    let content := Octet.openBracket :: (entry ++ entry ++
      [Octet.openBrace, Octet.closeBrace, Octet.closeBracket])
    let file : File := { path := "db", content, jobs := 0 }
    file.reading.1 = .ok .finished ∧ (wellFormed file.reading.2.2).length = 2 ∧
      ∃ f, ({} : Feed).bind file 2 = .ok f ∧
        (∀ pre s post, f.servings = pre ++ s :: post → s.Fits 2 file.reading.2.2 pre post) ∧
        f.servings.length ≤ 2 := by
  intro c entry content file
  have hend : errorOf file.reading.1 = none := by decide +kernel
  have haccepted : file.reading.1 = .ok .finished := by
    rcases h : file.reading.1 with e | _ | _
    · rw [h] at hend
      cases hend
    · exact absurd h (Reader.delivery_ne_halted _)
    · rfl
  have hcount : (wellFormed file.reading.2.2).length = 2 := by decide +kernel
  let usual : Memory.Buffer {} := ⟨65536, Memory.usual {}⟩
  obtain ⟨f, hbind, hfits, hle, -⟩ := exhausted_at_last_object haccepted usual 2
  rw [hcount] at hle
  exact ⟨haccepted, hcount, f, hbind, hfits, hle⟩

end Feed

end IndexFeed.Database
