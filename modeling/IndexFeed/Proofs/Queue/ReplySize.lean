import IndexFeed.Proofs.Command.Members
import IndexFeed.Proofs.Command.Words
import IndexFeed.Proofs.Database.Batching
import IndexFeed.Proofs.Json.CompactLength
import IndexFeed.Proofs.Queue.Outcome
import IndexFeed.Proofs.Queue.RoundTrip

/-!
# Room for the reply to a task

The reply to a task to index repeats the path of the file and counts the words of the invocation; the
task has the parts of that path in it, and the text of every word.  So for a command that comes out of a
database the reply is no longer than the task, and where the queues of a worker share one limit, there
is room for it.
-/

set_option autoImplicit false

namespace IndexFeed

open Json (itemOctets memberOctets octets octets_array octets_object octets_string textWidth)

/-! ## Commands -/

namespace CompileCommand

/-- A list of arguments takes an octet and more for each of them. -/
theorem length_le_octets_arguments {arguments : List String} (h : arguments ≠ []) :
    arguments.length + 1 ≤ octets (.array (arguments.map Json.string)) := by
  have hsum : ∀ ss : List String, ss.length ≤ ((ss.map Json.string).map itemOctets).sum := by
    intro ss
    induction ss with
    | nil => exact Nat.le_refl 0
    | cons s ss ih =>
      rw [List.map_cons, List.map_cons, List.sum_cons, List.length_cons, itemOctets]
      omega
  rw [octets_array (by simpa using h)]
  exact Nat.succ_le_succ (hsum arguments)

/-- A command in one form takes more octets than there are in its path, and one for each word. -/
theorem octets_toJson_ge {c : CompileCommand} (h : c.InOneForm) :
    textWidth c.directory + textWidth c.file + c.words.length + 39 ≤ octets c.toJson := by
  have hdirectory : textWidth "directory" = 9 := by decide +kernel
  have hfile : textWidth "file" = 4 := by decide +kernel
  have harguments : textWidth "arguments" = 9 := by decide +kernel
  have hcommand : textWidth "command" = 7 := by decide +kernel
  rw [toJson, octets_object (by simp [members])]
  simp only [members, List.map_append, List.sum_append, List.map_cons, List.map_nil, List.sum_cons,
    List.sum_nil, memberOctets, octets_string, hdirectory, hfile]
  rcases h with ⟨hne, hnone⟩ | ⟨hnil, hsome⟩
  · have hgiven : c.arguments.isEmpty = false := List.isEmpty_eq_false_iff.2 hne
    have hwords : c.words = c.arguments := by rw [words, hgiven, if_neg Bool.false_ne_true]
    have hlength := length_le_octets_arguments hne
    rw [hwords, hgiven, if_neg Bool.false_ne_true]
    simp only [List.map_cons, List.sum_cons, memberOctets, harguments]
    omega
  · obtain ⟨text, htext⟩ := Option.isSome_iff_exists.1 hsome
    have hwords : c.words = wordsOf text := by rw [words, hnil, htext]; rfl
    have hlength := length_wordsOf_le text
    have hwidth := Json.length_le_width text.toList
    rw [hwords, htext, hnil]
    simp only [Option.map_some, Option.toList_some, List.map_cons, List.sum_cons, memberOctets,
      octets_string, hcommand]
    change _ ≤ Json.textWidth text at hwidth
    omega

end CompileCommand

namespace Queue

/-! ## Messages -/

theorem Task.octets_index (jobId : UInt64) (c : CompileCommand) :
    octets (Task.index jobId c).toJson = octets (.nat jobId.toNat) + octets c.toJson + 37 := by
  have htype : textWidth "type" = 4 := by decide +kernel
  have hindex : textWidth "index" = 5 := by decide +kernel
  have hjobId : textWidth "job_id" = 6 := by decide +kernel
  have hcommand : textWidth "command" = 7 := by decide +kernel
  rw [toJson, octets_object (by simp [members])]
  simp only [members, List.map_cons, List.map_nil, List.sum_cons, List.sum_nil, memberOctets,
    octets_string, htype, hindex, hjobId, hcommand]
  omega

theorem Reply.octets_indexed (jobId argumentCount : UInt64) (file : String) :
    octets (Reply.indexed jobId file argumentCount).toJson =
      octets (.nat jobId.toNat) + textWidth file + octets (.nat argumentCount.toNat) + 56 := by
  have htype : textWidth "type" = 4 := by decide +kernel
  have hindexed : textWidth "indexed" = 7 := by decide +kernel
  have hjobId : textWidth "job_id" = 6 := by decide +kernel
  have hfile : textWidth "file" = 4 := by decide +kernel
  have hcount : textWidth "argument_count" = 14 := by decide +kernel
  rw [toJson, octets_object (by simp [members])]
  simp only [members, List.map_cons, List.map_nil, List.sum_cons, List.sum_nil, memberOctets,
    octets_string, htype, hindexed, hjobId, hfile, hcount]
  omega

theorem Reply.octets_failed (jobId : UInt64) :
    octets (Reply.failed jobId "Empty compiler invocation").toJson =
      octets (.nat jobId.toNat) + 65 := by
  have htype : textWidth "type" = 4 := by decide +kernel
  have hfailed : textWidth "failed" = 6 := by decide +kernel
  have hjobId : textWidth "job_id" = 6 := by decide +kernel
  have hmessage : textWidth "message" = 7 := by decide +kernel
  have htext : textWidth "Empty compiler invocation" = 25 := by decide +kernel
  rw [toJson, octets_object (by simp [members])]
  simp only [members, List.map_cons, List.map_nil, List.sum_cons, List.sum_nil, memberOctets,
    octets_string, htype, hfailed, hjobId, hmessage, htext]
  omega

namespace Worker

/-- The reply to a task with a command in one form is no longer than the task. -/
theorem octets_handleIndex_le (jobId : UInt64) {c : CompileCommand} (h : c.InOneForm) :
    octets (handleIndex jobId c).toJson ≤ octets (Task.index jobId c).toJson := by
  have hcommand := c.octets_toJson_ge h
  rw [Task.octets_index]
  unfold handleIndex
  dsimp only
  split
  · rw [Reply.octets_failed]
    omega
  · next hwords =>
    have hpath := c.textWidth_filePath_le
    have hpos : 0 < c.words.length := List.length_pos_iff.2 fun hnil => hwords (by rw [hnil]; rfl)
    have hcount := Json.octets_nat_le (UInt64.ofNat c.words.length).toNat
    have hmod : (UInt64.ofNat c.words.length).toNat ≤ c.words.length := Nat.mod_le ..
    rw [Reply.octets_indexed]
    omega

/-! ## Room for replies -/

/-- A command that some collector holds behind some objects of a database. -/
def Comes (c : CompileCommand) : Prop :=
  ∃ (collector : Database.Collector) (limit : Option Nat) (os : List Json.Object),
    c ∈ (Database.Collector.handler.after (collector.begin limit) os).commands

theorem Comes.inOneForm {c : CompileCommand} (h : Comes c) : c.InOneForm := by
  obtain ⟨collector, limit, os, hc⟩ := h
  rw [Database.Collector.commands_batch] at hc
  obtain ⟨o, -, ho⟩ := List.mem_filterMap.1 hc
  exact CompileCommand.inOneForm_of_ofObject? ho

/-- **There is room for the reply to a task to index.** Whatever command comes out of a database and
whatever number its job has: where there is room for the task, there is room for the reply to it.  So a
worker whose queues share one limit sends the reply to a task that it has been sent, and goes on to the
messages behind it. -/
theorem reply_fits {c : CompileCommand} (h : Comes c) (jobId : UInt64) :
    let message := Store.encode (Task.index jobId c).toJson
    (∀ limit, message.length ≤ limit → (handleIndex jobId c).bytes.length ≤ limit) ∧
      ∀ (o : Options) (p : Pair) (t : State) (ms : List Bytes),
        p.toDriver.maxMessageSize = p.toWorker.maxMessageSize →
        message.length ≤ p.toWorker.maxMessageSize →
          ∃ t' es, serve o p t (message :: ms) =
            (serve o p t' ms).after [(handleIndex jobId c).bytes] es := by
  intro message
  have hroom : ∀ limit, message.length ≤ limit → (handleIndex jobId c).bytes.length ≤ limit :=
    fun limit hlimit => Nat.le_trans (octets_handleIndex_le jobId h.inOneForm) hlimit
  refine ⟨hroom, fun o p t ms hsame hmessage => ?_⟩
  have hdecode : Store.decode Task.decoder message = .ok (.index jobId c) :=
    messages_return.2.1.decoded _
  have hdue : due message = some (handleIndex jobId c) := by rw [due, hdecode]
  obtain ⟨t', es, hreact, -⟩ := react_of_due (o := o) (t := t) hdue
  exact ⟨t', _, serve_of_fits hreact (hroom _ (hsame ▸ hmessage)) ms⟩

/-- The command of a database with one entry. -/
def lone : CompileCommand := { directory := "/w", file := "a.c", command := some "cc a.c" }

/-- A limit that the task just meets leaves room for the reply. -/
theorem lone_reply_fits : Comes lone ∧
    (Store.encode (Task.index 7 lone).toJson).length ≤ 88 ∧
    (handleIndex 7 lone).bytes.length ≤ 88 ∧
    ∃ t' es, serve {} (pairWithin 88 .openOnly) {} [Store.encode (Task.index 7 lone).toJson] =
      (serve {} (pairWithin 88 .openOnly) t' []).after [(handleIndex 7 lone).bytes] es := by
  have hcomes : Comes lone := by
    refine ⟨{ limit := none }, none, [Json.normalMembers lone.members], ?_⟩
    rw [Database.Collector.commands_batch]
    exact List.mem_filterMap.2 ⟨_, List.mem_singleton_self _,
      CompileCommand.ofObject?_members (.inr ⟨rfl, rfl⟩)⟩
  have hmessage : (Store.encode (Task.index 7 lone).toJson).length ≤ 88 := by decide +kernel
  obtain ⟨hroom, hserve⟩ := reply_fits hcomes 7
  exact ⟨hcomes, hmessage, hroom 88 hmessage, hserve {} _ {} [] rfl hmessage⟩

/-- Without an invocation the reply is longer than the task; no such command comes out of a database. -/
example : (Store.encode (Task.index 7 { directory := "", file := "" }).toJson).length <
    (handleIndex 7 { directory := "", file := "" }).bytes.length := by
  decide +kernel

end Worker

end Queue

end IndexFeed
