import IndexFeed.Proofs.Command.Members
import IndexFeed.Proofs.Program.Printing
import IndexFeed.Proofs.Queue.RoundTrip

/-!
# Printing what has been printed

The lines that are printed of a database are the entries of a database themselves.  Whatever the first
one was, valid or not, the second one is valid, each of its entries is a command, and printing it comes
to the same lines.
-/

set_option autoImplicit false

namespace IndexFeed

open Database (Reader Handler itemsOf)
open Database.Collector (wellFormed)
open Json (Document deepest normalMembers)

/-! ## Lines as entries -/

namespace Program

/-- The lines of a text that ends with a line feed. -/
def lines (output : String) : List (List Char) := (output.toList.splitOn '\n').dropLast

/-- The text whose entries are the lines of another one, between brackets and with commas between
them. -/
def database (output : String) : Bytes :=
  Utf8.encodeChars ('[' :: ([','].intercalate (lines output) ++ [']']))

theorem intercalate_concat_nil {x : Char} (ls : List (List Char)) :
    [x].intercalate (ls ++ [[]]) = ls.flatMap (· ++ [x]) := by
  induction ls with
  | nil => rfl
  | cons l ls ih =>
    rw [List.cons_append, List.intercalate_cons_of_ne_nil (by simp), ih, List.flatMap_cons]

theorem toList_linesOf (cs : List CompileCommand) :
    (linesOf false cs).toList = (cs.map fun c => c.toJson.chars).flatMap (· ++ ['\n']) := by
  induction cs with
  | nil => rfl
  | cons c cs ih =>
    have hfirst : linesOf false (c :: cs) = (c.toJson.text ++ "\n") ++ linesOf false cs := by
      rw [linesOf, List.map_cons, String.join_cons]
      rfl
    rw [hfirst, String.toList_append, ih, String.toList_append, Json.text, String.toList_ofList]
    rfl

/-- There is one line for each command. -/
theorem lines_linesOf (cs : List CompileCommand) :
    lines (linesOf false cs) = cs.map fun c => c.toJson.chars := by
  have hnone : ∀ l ∈ cs.map (fun c => c.toJson.chars) ++ [[]], '\n' ∉ l := by
    intro l hl
    rcases List.mem_append.1 hl with hl | hl
    · obtain ⟨c, -, rfl⟩ := List.mem_map.1 hl
      exact Json.newline_not_mem_chars c.toJson
    · obtain rfl := List.mem_singleton.1 hl
      exact List.not_mem_nil
  rw [lines, toList_linesOf, ← intercalate_concat_nil, List.splitOn_intercalate _ hnone (by simp),
    List.dropLast_concat]

end Program

namespace Json

theorem itemChars_eq_intercalate (js : List Json) : itemChars js = [','].intercalate (js.map chars) := by
  induction js with
  | nil => rfl
  | cons j js ih =>
    cases js with
    | nil => simp [itemChars]
    | cons k r =>
      rw [itemChars, ih, List.map_cons, List.map_cons, List.map_cons, List.intercalate_cons_cons]
      simp

theorem itemNumbers_of_forall {js : List Json} (h : ∀ j ∈ js, j.numbers = []) : itemNumbers js = [] := by
  induction js with
  | nil => rfl
  | cons j js ih =>
    rw [itemNumbers, h j List.mem_cons_self, ih fun k hk => h k (List.mem_cons_of_mem j hk)]
    rfl

theorem itemDepth_le {js : List Json} {n : Nat} (h : ∀ j ∈ js, j.depth ≤ n) : itemDepth js ≤ n := by
  induction js with
  | nil => exact Nat.zero_le n
  | cons j js ih =>
    exact Nat.max_le.2 ⟨h j List.mem_cons_self, ih fun k hk => h k (List.mem_cons_of_mem j hk)⟩

end Json

namespace Program

/-- The lines of commands are the entries of a database: each entry has the members of its command. -/
theorem document_database (cs : List CompileCommand) :
    Document (deepest + 1) (.array (itemsOf (cs.map CompileCommand.members)))
      (database (linesOf false cs)) := by
  have hitems : itemsOf (cs.map CompileCommand.members) = cs.map CompileCommand.toJson := by
    rw [itemsOf, List.map_map]
    rfl
  have hintegral : (Json.array (cs.map CompileCommand.toJson)).Integral := by
    have hnone : (Json.array (cs.map CompileCommand.toJson)).numbers = [] := by
      refine Json.itemNumbers_of_forall fun j hj => ?_
      obtain ⟨c, -, rfl⟩ := List.mem_map.1 hj
      exact c.numbers_toJson
    intro x hx
    rw [hnone] at hx
    cases hx
  have hdepth : (Json.array (cs.map CompileCommand.toJson)).depth ≤ deepest + 1 := by
    have hentries : Json.itemDepth (cs.map CompileCommand.toJson) ≤ 2 := by
      refine Json.itemDepth_le fun j hj => ?_
      obtain ⟨c, -, rfl⟩ := List.mem_map.1 hj
      exact c.depth_toJson_le
    exact Nat.le_trans (Nat.succ_le_succ hentries) (by decide)
  have htext : database (linesOf false cs) =
      Utf8.encodeChars (Json.array (cs.map CompileCommand.toJson)).chars := by
    rw [database, lines_linesOf, Json.chars, Json.itemChars_eq_intercalate, List.map_map]
    rfl
  rw [hitems, htext]
  have hblanks : Json.Cursor.Blanks [] := fun b hb => absurd hb List.not_mem_nil
  exact ⟨[], _, [], hblanks, hintegral.written.mono hdepth, hblanks, by simp⟩

/-- A pass over the lines of commands comes to their end, with the members of each command. -/
theorem delivery_database (cs : List CompileCommand) (capacity : Nat) :
    let reader : Reader := { source := .ofBytes (database (linesOf false cs)) capacity }
    reader.delivery.1 = .ok .finished ∧
      reader.delivery.2.2 = cs.map fun c => normalMembers c.members := by
  refine Reader.delivery_finished_iff.2 ⟨cs.map CompileCommand.members, document_database cs, ?_⟩
  rw [List.map_map]
  rfl

/-- Commands that objects describe are described by their own members. -/
theorem wellFormed_members {cs : List CompileCommand} (h : ∀ c ∈ cs, c.InOneForm) :
    wellFormed (cs.map fun c => normalMembers c.members) = cs := by
  induction cs with
  | nil => rfl
  | cons c cs ih =>
    have hc := CompileCommand.ofObject?_members (h c List.mem_cons_self)
    have hcs := ih fun d hd => h d (List.mem_cons_of_mem c hd)
    rw [List.map_cons, wellFormed, List.filterMap_cons_some hc]
    exact congrArg _ hcs

theorem inOneForm_of_mem_wellFormed {os : List Json.Object} {c : CompileCommand}
    (h : c ∈ wellFormed os) : c.InOneForm := by
  obtain ⟨o, -, ho⟩ := List.mem_filterMap.1 h
  exact CompileCommand.inOneForm_of_ofObject? ho

/-! ## Two runs -/

/-- A run prints the well-formed commands of one pass, as they are or in words, and its exit code is 0 if
the pass comes to the end of the document. -/
theorem run_spec {words : List String} {env : Environment} {now : Log.Moment} {w : World}
    {m : Memory} {content : Bytes} {i : CommandLine.Invocation} {path : String}
    {batchSize bufferSize : UInt64} {split : Bool} {files : FileTree}
    (hread : CommandLine.Invocation.read env words = .ok i)
    (haction : i.action = .parse path batchSize bufferSize split)
    (hlog : openLog (i.logSettings env) now w.files = .ok files)
    (hfilter : (i.logSettings env).fault? ≠ some .insideCharacter)
    (hfile : files.find path = .ok (.file content))
    (hbuffer : allocationEnding? m bufferSize.toNat = none)
    (hbatch : allocationEnding? m (batchSize.toNat * commandOctets) = none) :
    let reader : Reader := { source := .ofBytes content content.length }
    (run words env now w m).output = linesOf split (wellFormed reader.delivery.2.2) ∧
      (reader.delivery.1 = .ok .finished → (run words env now w m).code = some 0) := by
  intro reader
  obtain ⟨houtput, hending⟩ := parse_spec split hfile hbuffer hbatch
  rw [run_of_parse hread haction hlog hfilter]
  refine ⟨houtput, fun hfinished => ?_⟩
  change _ = endingBehind _ _ reader.delivery.1 at hending
  rw [hfinished] at hending
  dsimp only
  rw [hending]
  rfl

/-- A run that prints the commands of a database as they are: its words ask for that, its log opens,
the machine has memory for the buffer and for a batch, and this is the content of the file. -/
inductive Prints (words : List String) (env : Environment) (now : Log.Moment) (w : World)
    (m : Memory) (content : Bytes) : Prop where
  | intro {i : CommandLine.Invocation} {path : String} {batchSize bufferSize : UInt64}
      {files : FileTree} (read : CommandLine.Invocation.read env words = .ok i)
      (action : i.action = .parse path batchSize bufferSize false)
      (log : openLog (i.logSettings env) now w.files = .ok files)
      (filter : (i.logSettings env).fault? ≠ some .insideCharacter)
      (file : files.find path = .ok (.file content))
      (buffer : allocationEnding? m bufferSize.toNat = none)
      (batch : allocationEnding? m (batchSize.toNat * commandOctets) = none)

variable {words words' : List String} {env env' : Environment} {now now' : Log.Moment}
  {w w' : World} {m m' : Memory} {content : Bytes}

/-- Such a run prints the well-formed commands of one pass, and its exit code is 0 if the pass comes
to the end of the document. -/
theorem Prints.spec (h : Prints words env now w m content) :
    let reader : Reader := { source := .ofBytes content content.length }
    (run words env now w m).output = linesOf false (wellFormed reader.delivery.2.2) ∧
      (reader.delivery.1 = .ok .finished → (run words env now w m).code = some 0) := by
  obtain ⟨hread, haction, hlog, hfilter, hfile, hbuffer, hbatch⟩ := h
  exact run_spec hread haction hlog hfilter hfile hbuffer hbatch

/-- **Printing what has been printed comes to the same lines.** Take any run that prints the commands
of a database, whatever is in it, and any run, on the same machine or on another, that prints those of
the database whose entries are the lines of the first.  The second database is read to its end, with one
object for each line, none of which is dropped, and the second run ends without an error and prints the
same lines. -/
theorem reprints_same_lines (h : Prints words env now w m content)
    (h' : Prints words' env' now' w' m' (database (run words env now w m).output)) :
    let first := run words env now w m
    let second := run words' env' now' w' m'
    let entries := database first.output
    let reader : Reader := { source := .ofBytes entries entries.length }
    first.output.toList = (lines first.output).flatMap (· ++ ['\n']) ∧
      reader.delivery.1 = .ok .finished ∧
      reader.delivery.2.2.length = (lines first.output).length ∧
      (∀ o ∈ reader.delivery.2.2, (CompileCommand.ofObject? o).isSome) ∧
      second.code = some 0 ∧ second.output = first.output := by
  intro first second entries reader
  obtain ⟨hfirst, -⟩ := h.spec
  obtain ⟨hsecond, hcode⟩ := h'.spec
  generalize hcs : wellFormed
    ({ source := .ofBytes content content.length } : Reader).delivery.2.2 = cs at hfirst
  have hform : ∀ c ∈ cs, c.InOneForm := fun c hc => inOneForm_of_mem_wellFormed (hcs ▸ hc)
  obtain ⟨hfinished, hobjects⟩ := delivery_database cs entries.length
  rw [← hfirst] at hfinished hobjects
  refine ⟨?_, hfinished, ?_, ?_, hcode hfinished, ?_⟩
  · rw [hfirst, lines_linesOf, toList_linesOf]
  · rw [hobjects, hfirst, lines_linesOf, List.length_map, List.length_map]
  · intro o ho
    rw [hobjects] at ho
    obtain ⟨c, hc, rfl⟩ := List.mem_map.1 ho
    rw [CompileCommand.ofObject?_members (hform c hc)]
    rfl
  · rw [hsecond, hobjects, wellFormed_members hform, hfirst]

/-- The lines of a database that breaks off behind its second command, with a malformed object in it,
are printed again. -/
theorem reprints_lines_of_broken :
    let c : CompileCommand := { directory := "/w", file := "é\n.c", arguments := ["cc", ""] }
    let d : CompileCommand :=
      { directory := "/", file := "b", command := some "cc", output := some "b.o" }
    let entry := fun (c : CompileCommand) => Utf8.encodeChars c.toJson.chars ++ [Octet.comma]
    let content := Octet.openBracket :: (entry c ++ [Octet.openBrace, Octet.closeBrace, Octet.comma] ++
      entry d ++ [Octet.closeBracket])
    let world := fun (content : Bytes) =>
      ({ files := ⟨[([], .directory), (["db"], .file content)], []⟩ } : World)
    let first := run ["parse", "db"] [] ⟨2026, 1, 1, 0⟩ (world content)
    let second := run ["parse", "db", "-n", "1"] [] ⟨2026, 1, 1, 1⟩ (world (database first.output))
    first.output = linesOf false [c, d] ∧ second.output = first.output ∧ second.code = some 0 := by
  intro c d entry content world first second
  have hprints : Prints ["parse", "db"] [] ⟨2026, 1, 1, 0⟩ (world content) {} content :=
    .intro (i := ⟨0, false, none, .parse "db" 64 65536 false⟩) rfl rfl rfl (by decide) rfl rfl rfl
  have hprints' : Prints ["parse", "db", "-n", "1"] [] ⟨2026, 1, 1, 1⟩
      (world (database first.output)) {} (database first.output) :=
    .intro (i := ⟨0, false, none, .parse "db" 1 65536 false⟩) rfl rfl rfl (by decide) rfl rfl rfl
  obtain ⟨-, -, -, -, hcode, hsame⟩ := reprints_same_lines hprints hprints'
  have hcommands : wellFormed
      ({ source := .ofBytes content content.length } : Reader).delivery.2.2 = [c, d] := by
    decide +kernel
  refine ⟨?_, hsame, hcode⟩
  rw [← hcommands]
  exact hprints.spec.1

end Program

end IndexFeed
