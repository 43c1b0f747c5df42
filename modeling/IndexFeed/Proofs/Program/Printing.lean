import IndexFeed.Program
import IndexFeed.Proofs.Database.Batching
import IndexFeed.Proofs.Database.Framing
import IndexFeed.Proofs.Json.Escape
import IndexFeed.Proofs.Number.Shortest

/-!
# What is printed of a database

The commands of a database are printed batch by batch, and counted as they are printed.  However the
batches fall, what has been printed when an error turns up is the well-formed commands in front of it,
a line for each, and their number is the one that is reported.
-/

set_option autoImplicit false

namespace IndexFeed

/-! ## Lines -/

namespace Json

theorem newline_not_mem_number (x : Number) : '\n' ∉ x.chars := by
  intro h
  cases x with
  | integer i hleast hmost =>
    have hdigit : ¬(Char.isDigit '\n' = true) := by decide
    rw [Number.chars, integerChars] at h
    split at h
    · rcases List.mem_cons.1 h with h | h
      · cases h
      · exact hdigit (Decimal.isDigit_of_mem_chars h)
    · exact hdigit (Decimal.isDigit_of_mem_chars h)
  | float x =>
    have hnumeric := x.isNumeric_of_mem_chars '\n' h
    exact absurd hnumeric (by decide)

theorem hexDigit_ne_newline {n : Nat} (h : n < 16) : Octet.hexDigit n ≠ '\n' := by
  revert n
  decide +kernel

/-- A line feed in a string is written as an escape. -/
theorem newline_not_mem_escapedChar (c : Char) : '\n' ∉ escapedChar c := by
  have hshort : ∀ e ∈ shortEscapes, '\n' ≠ e.1 := by decide
  have h := escaping c
  generalize escapedChar c = written at h ⊢
  cases h with
  | @short y hy => simp [hshort (y, c) hy]
  | numbered hcontrol =>
    have hhigh := hexDigit_ne_newline (n := c.toNat / 16) (by omega)
    have hlow := hexDigit_ne_newline (n := c.toNat % 16) (Nat.mod_lt _ (by decide))
    simp [hhigh.symm, hlow.symm]
  | plain _ _ hcontrol =>
    rw [List.mem_singleton]
    rintro rfl
    exact hcontrol (by decide)

theorem newline_not_mem_stringChars (s : String) : '\n' ∉ stringChars s := by
  have hquote : '\n' ≠ '\"' := by decide
  rw [stringChars, List.mem_cons, List.mem_append, List.mem_flatMap, List.mem_singleton]
  rintro (h | ⟨c, -, h⟩ | h)
  · exact hquote h
  · exact newline_not_mem_escapedChar c h
  · exact hquote h

mutual

/-- The compact text of a value is one line. -/
theorem newline_not_mem_chars (j : Json) : '\n' ∉ j.chars := by
  match j with
  | .null => decide
  | .bool true => decide
  | .bool false => decide
  | .number x => exact newline_not_mem_number x
  | .string s => exact newline_not_mem_stringChars s
  | .array items =>
    have hitems := newline_not_mem_itemChars items
    simp [chars, hitems]
  | .object members =>
    have hmembers := newline_not_mem_memberChars members
    simp [chars, hmembers]

theorem newline_not_mem_itemChars (js : List Json) : '\n' ∉ itemChars js := by
  match js with
  | [] => exact List.not_mem_nil
  | [j] => exact newline_not_mem_chars j
  | j :: k :: r =>
    have hj := newline_not_mem_chars j
    have hr := newline_not_mem_itemChars (k :: r)
    simp [itemChars, hj, hr]

theorem newline_not_mem_memberChars (ms : List (String × Json)) : '\n' ∉ memberChars ms := by
  match ms with
  | [] => exact List.not_mem_nil
  | [(k, j)] =>
    have hk := newline_not_mem_stringChars k
    have hj := newline_not_mem_chars j
    simp [memberChars, hk, hj]
  | (k, j) :: m :: r =>
    have hk := newline_not_mem_stringChars k
    have hj := newline_not_mem_chars j
    have hr := newline_not_mem_memberChars (m :: r)
    simp [memberChars, hk, hj, hr]

end

end Json

namespace Program

open Database (Feed Reader Handler Collector)
open Database.Collector (wellFormed)
open Json (Document deepest)

/-! ## Output -/

theorem linesOf_append (split : Bool) (cs ds : List CompileCommand) :
    linesOf split (cs ++ ds) = linesOf split cs ++ linesOf split ds := by
  rw [linesOf, List.map_append, String.join_append]
  rfl

/-- There is one line for each command. -/
theorem count_linesOf (split : Bool) (cs : List CompileCommand) :
    (linesOf split cs).toList.count '\n' = cs.length := by
  induction cs with
  | nil => rfl
  | cons c cs ih =>
    have hline : ((printed split c).toJson.text ++ "\n").toList.count '\n' = 1 := by
      have hnone := List.count_eq_zero.2 (Json.newline_not_mem_chars (printed split c).toJson)
      rw [Json.text, String.toList_append, String.toList_ofList, List.count_append, hnone]
      rfl
    have hcons : linesOf split (c :: cs) =
        ((printed split c).toJson.text ++ "\n") ++ linesOf split cs := by
      rw [linesOf, List.map_cons, String.join_cons]
      rfl
    rw [hcons, String.toList_append, List.count_append, hline, ih, List.length_cons, Nat.add_comm]

/-! ## Batches -/

/-- How an action ends that has printed so many commands where the document ends in a given way. -/
def endingBehind (path : String) (commands : Nat) : Except Database.Error Database.Outcome → Ending
  | .ok _ => .done
  | .error e => .failed (.parsing path commands e)

theorem printBatches_of_exhausted {f : Feed} (split : Bool) (path : String) (total batches : Nat)
    (hf : f.exhausted = true) : printBatches split path total batches f =
      { events := [.finishedParsing total batches], ending := .done } := by
  rw [printBatches, dif_pos hf]

/-- The batches of a feed print the commands that it owes, and an error is reported with the number
of all of them. -/
theorem printBatches_spec {f : Feed} {os : List Json.Object}
    {ending : Except Database.Error Database.Outcome} (split : Bool) (path : String)
    (total batches : Nat) (ho : f.Owes os ending) :
    (printBatches split path total batches f).output = linesOf split (wellFormed os) ∧
      (printBatches split path total batches f).ending =
        endingBehind path (total + (wellFormed os).length) ending := by
  fun_induction printBatches split path total batches f generalizing os with
  | case1 total batches f hf => exact absurd ho.1 (by simp [hf])
  | case2 total batches f hf e batch g events hn =>
    rcases Feed.next_spec ho with ⟨e', g', events', rfl, hn'⟩ | ⟨n, g', events', -, hn', -⟩ |
      ⟨n, pre, left, g', events', -, hn', -⟩
    · rw [hn] at hn'
      cases hn'
      exact ⟨rfl, rfl⟩
    · rw [hn] at hn'
      cases hn'
    · rw [hn] at hn'
      cases hn'
  | case3 total batches f hf n batch g events hn rest =>
    rename_i ih
    rcases Feed.next_spec ho with ⟨e', g', events', -, hn'⟩ | ⟨n', g', events', rfl, hn', hg⟩ |
      ⟨n', pre, left, g', events', rfl, hn', hleft⟩
    · rw [hn] at hn'
      cases hn'
    · rw [hn] at hn'
      cases hn'
      have hrest : rest = { events := [.finishedParsing _ _], ending := .done } :=
        printBatches_of_exhausted split path _ _ hg
      rw [hrest]
      exact ⟨String.append_empty, rfl⟩
    · rw [hn] at hn'
      cases hn'
      obtain ⟨houtput, hending⟩ := ih hleft
      rw [Collector.wellFormed_append, linesOf_append, List.length_append, ← Nat.add_assoc]
      exact ⟨congrArg (linesOf split (wellFormed pre) ++ ·) houtput, hending⟩

/-! ## The whole command -/

/-- Opening a regular file hands out its content. -/
theorem openAt_of_file {files : FileTree} {path : String} {content : Bytes}
    (h : files.find path = .ok (.file content)) :
    ∃ file events, Database.File.openAt files path = (.ok file, events) ∧ file.content = content := by
  rw [Database.File.openAt, h]
  exact ⟨_, _, rfl, rfl⟩

/-- With memory for its buffer and its batch, the action prints the well-formed commands of one
pass over the document, and ends as that pass does. -/
theorem parse_spec {m : Memory} {files : FileTree} {path : String} {content : Bytes}
    {batchSize bufferSize : Nat} (split : Bool) (hfile : files.find path = .ok (.file content))
    (hbuffer : allocationEnding? m bufferSize = none)
    (hbatch : allocationEnding? m (batchSize * commandOctets) = none) :
    let single := Reader.run Handler.keepAll { source := .ofBytes content content.length } []
    (parse m files path batchSize bufferSize split).output = linesOf split (wellFormed single.2.2) ∧
      (parse m files path batchSize bufferSize split).ending =
        endingBehind path (wellFormed single.2.2).length single.1 := by
  intro single
  obtain ⟨file, events, hopen, rfl⟩ := openAt_of_file hfile
  obtain ⟨b, hbind, -, -, howes⟩ :=
    Feed.bind_spec (f := { buffer := bufferSize }) rfl file batchSize
  have hprinted := printBatches_spec (f := { buffer := bufferSize, binding := some b }) split path 0 0
    ⟨rfl, b, rfl, howes⟩
  rw [Nat.zero_add] at hprinted
  simp only [parse, hopen, hbuffer, hbatch, hbind]
  exact hprinted

/-- A run that prints the commands of a database reports what the action does. -/
theorem run_of_parse {words : List String} {env : Environment} {now : Log.Moment} {w : World}
    {m : Memory} {i : CommandLine.Invocation} {path : String} {batchSize bufferSize : UInt64}
    {split : Bool} {files : FileTree} (hread : CommandLine.Invocation.read env words = .ok i)
    (haction : i.action = .parse path batchSize bufferSize split)
    (hlog : openLog (i.logSettings env) now w.files = .ok files)
    (hfilter : (i.logSettings env).fault? ≠ some .insideCharacter) :
    let deed := parse m files path batchSize.toNat bufferSize.toNat split
    run words env now w m =
      { code := deed.ending.code
        output := deed.output
        diagnostics := filterWarnings (i.logSettings env) ++
          logged (i.logSettings env) deed.events ++ deed.ending.report
        world := { w with files } } := by
  intro deed
  simp only [run, hread, hlog, if_neg hfilter, haction, perform, deed]

/-- **What is printed of a database, and how a run that prints it ends**, on any machine that has memory
for the buffer and for a batch.  On the standard output there is a line for each well-formed command
among the objects of one pass over the document, in order, and nothing else.  The exit code is 0 if and
only if the document is an array of objects.  Where it is not, the report names as many commands as
there are lines, and the error of that pass as the cause. -/
theorem run_prints {words : List String} {env : Environment} {now : Log.Moment} {w : World}
    {m : Memory} {i : CommandLine.Invocation} {path : String} {batchSize bufferSize : UInt64}
    {split : Bool} {files : FileTree} {content : Bytes}
    (hread : CommandLine.Invocation.read env words = .ok i)
    (haction : i.action = .parse path batchSize bufferSize split)
    (hlog : openLog (i.logSettings env) now w.files = .ok files)
    (hfilter : (i.logSettings env).fault? ≠ some .insideCharacter)
    (hfile : files.find path = .ok (.file content))
    (hbuffer : allocationEnding? m bufferSize.toNat = none)
    (hbatch : allocationEnding? m (batchSize.toNat * commandOctets) = none) :
    let single := Reader.run Handler.keepAll { source := .ofBytes content content.length } []
    let commands := wellFormed single.2.2
    let outcome := run words env now w m
    let lines := outcome.output.toList.count '\n'
    outcome.output = linesOf split commands ∧ lines = commands.length ∧
      (outcome.code = some 0 ↔
        ∃ os, Document (deepest + 1) (.array (Database.itemsOf os)) content) ∧
      (outcome.code ≠ some 0 → outcome.code = some 1 ∧ ∃ e events, single.1 = .error e ∧
        outcome.diagnostics =
          filterWarnings (i.logSettings env) ++ logged (i.logSettings env) events ++
            ("error: Failed to parse " ++ path ++ " after " ++ Decimal.text lines ++ " commands") ::
              (e.message :: e.reason.toList).map ("  caused by: " ++ ·)) := by
  intro single commands outcome lines
  have hrun : outcome = _ := run_of_parse hread haction hlog hfilter
  generalize hdeed : parse m files path batchSize.toNat bufferSize.toNat split = deed at hrun
  obtain ⟨houtput, hending⟩ : deed.output = linesOf split commands ∧
      deed.ending = endingBehind path commands.length single.1 :=
    hdeed ▸ parse_spec split hfile hbuffer hbatch
  have hprinted : outcome.output = linesOf split commands := by
    rw [hrun]
    exact houtput
  have hlines : lines = commands.length := by
    simp only [lines, hprinted]
    exact count_linesOf split commands
  have hvalid : single.1 = .ok .finished ↔
      ∃ os, Document (deepest + 1) (.array (Database.itemsOf os)) content := by
    constructor
    · intro h
      obtain ⟨os, hdocument, -⟩ := Reader.delivery_finished_iff.1 ⟨h, rfl⟩
      exact ⟨os, hdocument⟩
    · rintro ⟨os, hdocument⟩
      exact (Reader.delivery_finished_iff.2 ⟨os, hdocument, rfl⟩).1
  refine ⟨hprinted, hlines, ?_⟩
  rw [← hvalid, hlines, hrun]
  dsimp only
  rw [hending]
  rcases hend : single.1 with e | _ | _
  · -- the error is reported behind what has been logged
    have hfailed : (endingBehind path commands.length (.error e)).code = some 1 := rfl
    have hfirst : "error: " ++ ("Failed to parse " ++ path ++ " after "
        ++ Decimal.text commands.length ++ " commands") =
        "error: Failed to parse " ++ path ++ " after " ++ Decimal.text commands.length
          ++ " commands" := by
      rw [← String.append_assoc, ← String.append_assoc, ← String.append_assoc,
        ← String.append_assoc]
      rfl
    have hnonzero : (endingBehind path commands.length (.error e)).code ≠ some 0 := by
      rw [hfailed]
      decide
    refine ⟨iff_of_false hnonzero (by simp), fun _ => ⟨hfailed, e, deed.events, rfl, ?_⟩⟩
    rw [← hfirst]
    rfl
  · exact absurd hend (Reader.delivery_ne_halted _)
  · have hdone : (endingBehind path commands.length (.ok .finished)).code = some 0 := rfl
    exact ⟨iff_of_true hdone rfl, fun h => absurd hdone h⟩

/-- The third command of a database stands in the batch that breaks off at the comma behind it.  It is
printed and counted. -/
theorem prints_broken_batch :
    let c : CompileCommand := { directory := "/w", file := "a.c", command := some "cc a.c" }
    let entry := Utf8.encodeChars c.toJson.chars ++ [Octet.comma]
    let content := Octet.openBracket :: (entry ++ entry ++ entry ++ [Octet.closeBracket])
    let files : FileTree := ⟨[([], .directory), (["db"], .file content)], []⟩
    let outcome := run ["parse", "db", "-n", "2"] [] ⟨2026, 1, 1, 0⟩ { files }
    let settings : Log.Settings := {}
    outcome.output = linesOf false [c, c, c] ∧ outcome.code = some 1 ∧
      ∃ (e : Database.Error) (events : List Event), outcome.diagnostics =
        filterWarnings settings ++ logged settings events ++
          "error: Failed to parse db after 3 commands" ::
            (e.message :: e.reason.toList).map ("  caused by: " ++ ·) := by
  intro c entry content files outcome settings
  have hread : CommandLine.Invocation.read [] ["parse", "db", "-n", "2"] =
      .ok ⟨0, false, none, .parse "db" 2 65536 false⟩ := rfl
  have hlog : openLog settings ⟨2026, 1, 1, 0⟩ files = .ok files := rfl
  have hfile : files.find "db" = .ok (.file content) := rfl
  obtain ⟨houtput, hlines, hcode, hreport⟩ :=
    run_prints (w := { files }) (m := {}) hread rfl hlog (by decide) hfile rfl rfl
  have hcommands : wellFormed
      (Reader.run Handler.keepAll { source := .ofBytes content content.length } []).2.2 =
        [c, c, c] := by
    decide +kernel
  have hbroken : Feed.errorOf
      (Reader.run Handler.keepAll { source := .ofBytes content content.length } []).1 ≠ none := by
    decide +kernel
  rw [hcommands] at houtput hlines
  rw [hlines] at hreport
  have hnonzero : outcome.code ≠ some 0 := by
    intro h
    obtain ⟨os, hdocument⟩ := hcode.1 h
    have hfinished :
        ({ source := .ofBytes content content.length } : Reader).delivery.1 = .ok .finished :=
      (Reader.delivery_finished_iff.2 ⟨os, hdocument, rfl⟩).1
    exact hbroken (congrArg Feed.errorOf hfinished)
  obtain ⟨hone, e, events, -, hdiagnostics⟩ := hreport hnonzero
  have hfirst : "error: Failed to parse " ++ "db" ++ " after " ++ Decimal.text [c, c, c].length ++
      " commands" = "error: Failed to parse db after 3 commands" := by
    decide +kernel
  rw [hfirst] at hdiagnostics
  exact ⟨houtput, hone, e, events, hdiagnostics⟩

end Program

end IndexFeed
