import IndexFeed.Proofs.Json.Keeping
import IndexFeed.Proofs.Json.Refusal
import IndexFeed.Queue.Store
import IndexFeed.Queue.Message

/-!
# What is said about messages that are no tasks

The decoder of tasks quotes from a message no more than there is, and everything else that it says is
brief.  So the text of an error has at most seven octets for each octet of the message, counted as they
stand inside a string.
-/

set_option autoImplicit false

namespace IndexFeed

open Json (Brief Misfit Segment Tagged)

variable {n : Nat} {m : Misfit}

/-! ## Records -/

theorem CompileCommand.modest_record (n : Nat) : CompileCommand.record.Modest n where
  expected := by decide +kernel
  slots := by
    simp only [CompileCommand.record, List.forall_mem_cons]
    refine ⟨?_, ?_, ?_, ?_, ?_, List.forall_mem_nil _⟩
    · exact Json.Slot.modest_of (by decide +kernel) Json.Shape.refusesWithin_text
    · exact Json.Slot.modest_of (by decide +kernel) Json.Shape.refusesWithin_text
    · exact Json.Slot.modest_of (by decide +kernel) Json.Shape.refusesWithin_text.list
    · exact Json.Slot.modest_of (by decide +kernel) Json.Shape.refusesWithin_text.optional
    · exact Json.Slot.modest_of (by decide +kernel) Json.Shape.refusesWithin_text.optional
  length := by decide +kernel
  ofFields state m h := by
    rcases bind_eq_error_iff.1 h with hdirectory | ⟨directory, -, hrest⟩
    · exact Json.Record.within_of_need (by decide +kernel) hdirectory
    · rcases bind_eq_error_iff.1 hrest with hfile | ⟨file, -, hbuild⟩
      · exact Json.Record.within_of_need (by decide +kernel) hfile
      · cases hbuild
  ofItems count state m hcount h := by
    rcases bind_eq_error_iff.1 h with hdirectory | ⟨directory, -, hrest⟩
    · exact Json.Record.within_of_needItem (by decide +kernel) hcount hdirectory
    · rcases bind_eq_error_iff.1 hrest with hfile | ⟨file, -, hbuild⟩
      · exact Json.Record.within_of_needItem (by decide +kernel) hcount hfile
      · cases hbuild

namespace Queue.Task

theorem modest_indexRecord (n : Nat) : indexRecord.Modest n where
  expected := by decide +kernel
  slots := by
    simp only [indexRecord, List.forall_mem_cons]
    refine ⟨?_, ?_, List.forall_mem_nil _⟩
    · exact Json.Slot.modest_of (by decide +kernel)
        (Json.Shape.refusesWithin_natural (by decide +kernel))
    · exact Json.Slot.modest_of (by decide +kernel) (CompileCommand.modest_record n).refusesWithin
  length := by decide +kernel
  ofFields state m h := by
    rcases bind_eq_error_iff.1 h with hjob | ⟨jobId, -, hrest⟩
    · exact Json.Record.within_of_need (by decide +kernel) hjob
    · rcases bind_eq_error_iff.1 hrest with hcommand | ⟨command, -, hbuild⟩
      · exact Json.Record.within_of_need (by decide +kernel) hcommand
      · cases hbuild
  ofItems count state m hcount h := by
    rcases bind_eq_error_iff.1 h with hjob | ⟨jobId, -, hrest⟩
    · exact Json.Record.within_of_needItem (by decide +kernel) hcount hjob
    · rcases bind_eq_error_iff.1 hrest with hcommand | ⟨command, -, hbuild⟩
      · exact Json.Record.within_of_needItem (by decide +kernel) hcount hcommand
      · cases hbuild

theorem ofTagged_within {t : Tagged} (ht : t.body.size ≤ n) (h : ofTagged t = .error m) :
    m.Within n := by
  unfold ofTagged at h
  split at h
  · exact (modest_indexRecord n).refusesWithin t.body m ht h
  · unfold acceptShutdown at h
    split at h
    · next item items hbody =>
      cases h
      have hlength := Json.length_le_itemSizes (item :: items)
      rw [hbody, Json.size] at ht
      exact ⟨by omega, by decide +kernel⟩
    · cases h

/-- Decoding a task quotes no more than the message, and names the value or its tag. -/
theorem keeps_decoder (n : Nat) : decoder.Keeps n 0 (fun _ _ => True) Tagged.paths :=
  (Tagged.keeps_decode (by decide +kernel) (by decide +kernel)).refine List.mem_cons_self
    (fun _ _ _ _ _ => trivial) fun _ _ _ hj ht h => ofTagged_within (Nat.le_trans ht hj) h

end Queue.Task

/-! ## Errors -/

/-- How long the path of such a fault is. -/
theorem Queue.Store.textWidth_pathInMessage_le :
    ∀ p ∈ Tagged.paths, Json.textWidth (Store.pathInMessage p) ≤ 16 := by
  decide +kernel

/-- The message of an error of decoding: of what is no JSON, or of another shape. -/
theorem Queue.Store.textWidth_decode_le {m : Bytes} {e : Error}
    (hm : m.length ≤ Kernel.largestMessage) (h : Store.decode Task.decoder m = .error e) :
    Json.textWidth e.message ≤ 7 * m.length + 221 := by
  unfold Store.decode at h
  split at h
  · cases h
  · next e' hparse =>
    obtain ⟨f, hquotes, rfl⟩ := (Task.keeps_decoder m.length).parse_error hparse
    have hlength : m.length + 1 < 10 ^ 8 := Nat.lt_of_le_of_lt (Nat.succ_le_succ hm) (by decide)
    have hmessage := f.textWidth_report_le .whole m hlength fun misfit hmisfit =>
      (hquotes misfit hmisfit).1
    split at h
    · next hcategory =>
      cases h
      -- only a misfit has a path to show
      have hpath : f.path ∈ Tagged.paths := by
        cases hcause : f.cause with
        | misfit misfit => exact (hquotes misfit hcause).2
        | _ =>
          rw [Json.Error.category, Json.Fault.report, hcause] at hcategory
          cases hcategory
      have hpathInMessage := Store.textWidth_pathInMessage_le f.path hpath
      have hopen : Json.textWidth "Received message does not match expected shape at " = 50 := by
        decide +kernel
      have hcolon : Json.textWidth ": " = 2 := by decide +kernel
      change Json.textWidth ("Received message does not match expected shape at " ++
        Store.pathInMessage f.path ++ ": " ++ (f.report .whole m).message) ≤ _
      rw [Json.textWidth_append, Json.textWidth_append, Json.textWidth_append]
      omega
    · cases h
      have hopen : Json.textWidth "Received message is not valid JSON: " ≤ 50 := by decide +kernel
      change Json.textWidth ("Received message is not valid JSON: " ++
        (f.report .whole m).message) ≤ _
      rw [Json.textWidth_append]
      omega

end IndexFeed
