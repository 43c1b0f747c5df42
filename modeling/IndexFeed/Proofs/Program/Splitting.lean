import IndexFeed.Proofs.Command.Wordless
import IndexFeed.Proofs.Program.Reprinting

/-!
# Printing invocations in words

A run that splits prints the commands of a database with their invocations in words, a line for each line
of a run that does not.  Such a line is a command again, and stays as it is, unless the invocation has no
words: then there is no invocation on the line, and whoever reads the lines again drops it
(`splits_lines`).
-/

set_option autoImplicit false

namespace IndexFeed

open Database (Reader)
open Database.Collector (wellFormed)
open Json (normalMembers)

/-! ## Commands in words -/

namespace CompileCommand

/-- The command with its invocation in words. -/
def inWords (c : CompileCommand) : CompileCommand := { c with arguments := c.words, command := none }

variable {c : CompileCommand}

theorem words_eq_arguments (h : c.arguments ≠ []) : c.words = c.arguments := by
  simp [words, h]

/-- Words are in words already. -/
theorem inWords_eq_self (harguments : c.arguments ≠ []) (hcommand : c.command = none) :
    c.inWords = c := by
  rw [inWords, words_eq_arguments harguments, ← hcommand]

theorem inOneForm_inWords (h : c.words ≠ []) : c.inWords.InOneForm := .inl ⟨h, rfl⟩

theorem inWords_inWords (h : c.words ≠ []) : c.inWords.inWords = c.inWords :=
  inWords_eq_self h rfl

/-- What has been printed in words is a command if there are any. -/
theorem ofObject?_inWords (c : CompileCommand) : ofObject? (normalMembers c.inWords.members) =
    if c.words = [] then none else some c.inWords := by
  split
  · next h =>
    -- without words neither form of the invocation is there
    rw [normalMembers_members, inWords, h]
    cases c.output <;>
      simp [ofObject?, Draft.ofObject, Draft.add, Field.ofKey, Draft.fill, Draft.isWellFormed] <;> decide
  · next h => exact ofObject?_members (inOneForm_inWords h)

/-- A command in one form has no words if its text has none. -/
theorem words_eq_nil_iff (h : c.InOneForm) : c.words = [] ↔ ∃ text, c.command = some text ∧
    ∀ line ∈ text.toList.splitOn '\n', ShellWords.Bare line := by
  rcases h with ⟨hne, hnone⟩ | ⟨hnil, hsome⟩
  · rw [words_eq_arguments hne, hnone]
    exact iff_of_false hne fun ⟨text, htext, _⟩ => nomatch htext
  · obtain ⟨text, htext⟩ := Option.isSome_iff_exists.1 hsome
    have hwords : c.words = wordsOf text := by simp [words, hnil, htext]
    rw [hwords, wordsOf_eq_nil_iff, htext]
    simp

end CompileCommand

/-! ## Lines in words -/

namespace Program

open CompileCommand (inWords)

theorem printed_of_inOneForm {c : CompileCommand} (h : c.InOneForm) : printed true c = c.inWords := by
  rcases h with ⟨hne, hnone⟩ | ⟨hnil, -⟩
  · rw [CompileCommand.inWords_eq_self hne hnone]
    simp [printed, hne]
  · simp [printed, hnil, inWords]

theorem linesOf_of_inOneForm {cs : List CompileCommand} (h : ∀ c ∈ cs, c.InOneForm) :
    linesOf true cs = linesOf false (cs.map inWords) := by
  rw [linesOf, linesOf, List.map_map]
  refine congrArg String.join (List.map_congr_left fun c hc => ?_)
  rw [printed_of_inOneForm (h c hc)]
  rfl

/-- The commands among the objects of lines in words are those that have words. -/
theorem wellFormed_inWords (cs : List CompileCommand) :
    wellFormed (cs.map fun c => normalMembers c.inWords.members) =
      (cs.filter fun c => c.words ≠ []).map inWords := by
  induction cs with
  | nil => rfl
  | cons c cs ih =>
    have hc := c.ofObject?_inWords
    rw [wellFormed] at ih
    by_cases hwords : c.words = []
    · rw [if_pos hwords] at hc
      rw [List.map_cons, wellFormed, List.filterMap_cons_none hc, ih,
        List.filter_cons_of_neg (by simpa using hwords)]
    · rw [if_neg hwords] at hc
      rw [List.map_cons, wellFormed, List.filterMap_cons_some hc, ih,
        List.filter_cons_of_pos (by simpa using hwords), List.map_cons]

/-- Commands that have words are printed in words as they are. -/
theorem linesOf_inWords (cs : List CompileCommand) (h : ∀ c ∈ cs, c.words ≠ []) :
    linesOf true (cs.map inWords) = linesOf false (cs.map inWords) := by
  rw [linesOf_of_inOneForm, List.map_map]
  · refine congrArg (linesOf false) (List.map_congr_left fun c hc => ?_)
    exact CompileCommand.inWords_inWords (h c hc)
  · intro d hd
    obtain ⟨c, hc, rfl⟩ := List.mem_map.1 hd
    exact CompileCommand.inOneForm_inWords (h c hc)

/-! ## Runs -/

/-- A run that prints the commands of a database in words: its words ask for that, its log opens, the
machine has memory for the buffer and for a batch, and this is the content of the file. -/
inductive Splits (words : List String) (env : Environment) (now : Log.Moment) (w : World)
    (m : Memory) (content : Bytes) : Prop where
  | intro {i : CommandLine.Invocation} {path : String} {batchSize bufferSize : UInt64}
      {files : FileTree} (read : CommandLine.Invocation.read env words = .ok i)
      (action : i.action = .parse path batchSize bufferSize true)
      (log : openLog (i.logSettings env) now w.files = .ok files)
      (filter : (i.logSettings env).fault? ≠ some .insideCharacter)
      (file : files.find path = .ok (.file content))
      (buffer : allocationEnding? m bufferSize.toNat = none)
      (batch : allocationEnding? m (batchSize.toNat * commandOctets) = none)

variable {words words' words'' : List String} {env env' env'' : Environment}
  {now now' now'' : Log.Moment} {w w' w'' : World} {m m' m'' : Memory} {content : Bytes}

theorem Splits.spec (h : Splits words env now w m content) :
    let reader : Reader := { source := .ofBytes content content.length }
    (run words env now w m).output = linesOf true (wellFormed reader.delivery.2.2) ∧
      (reader.delivery.1 = .ok .finished → (run words env now w m).code = some 0) := by
  obtain ⟨hread, haction, hlog, hfilter, hfile, hbuffer, hbatch⟩ := h
  exact run_spec hread haction hlog hfilter hfile hbuffer hbatch

/-- Filtering keeps the lines only if it keeps all commands. -/
theorem linesOf_filter_iff (cs : List CompileCommand) :
    linesOf false ((cs.filter fun c => c.words ≠ []).map inWords) = linesOf false (cs.map inWords) ↔
      ∀ c ∈ cs, c.words ≠ [] := by
  constructor
  · intro h
    have hcount := congrArg (fun s => s.toList.count '\n') h
    simp only [count_linesOf, List.length_map] at hcount
    simpa using List.length_filter_eq_length_iff.1 hcount
  · intro h
    rw [List.filter_eq_self.2 (by simpa using h)]

/-- **Splitting keeps all records but those whose invocation has no words.** Take any content of a database,
a run that prints its commands and one that prints them in words, and a run that prints in words the
database whose entries are the lines of the second.  The second run prints for each line of the first the
same command in words.  Of its lines those are records that show any words, and the third run prints just
these again.  So it prints the same lines if and only if every invocation has words.  The invocations
without words are the texts that are blank but for comments. -/
theorem splits_lines (hplain : Prints words env now w m content)
    (hsplit : Splits words' env' now' w' m' content)
    (hagain : Splits words'' env'' now'' w'' m'' (database (run words' env' now' w' m').output)) :
    let plain := run words env now w m
    let split := run words' env' now' w' m'
    let again := run words'' env'' now'' w'' m''
    let entries := database split.output
    let cs := wellFormed ({ source := .ofBytes content content.length } : Reader).delivery.2.2
    let reader : Reader := { source := .ofBytes entries entries.length }
    plain.output = linesOf false cs ∧ split.output = linesOf false (cs.map inWords) ∧
      reader.delivery.1 = .ok .finished ∧
      reader.delivery.2.2.map CompileCommand.ofObject? =
        cs.map (fun c => if c.words = [] then none else some c.inWords) ∧
      again.code = some 0 ∧
      again.output = linesOf false ((cs.filter fun c => c.words ≠ []).map inWords) ∧
      (again.output = split.output ↔ ∀ c ∈ cs, c.words ≠ []) ∧
      ∀ c ∈ cs, c.words = [] ↔ ∃ text, c.command = some text ∧
        ∀ line ∈ text.toList.splitOn '\n', ShellWords.Bare line := by
  intro plain split again entries cs reader
  obtain ⟨hplain, -⟩ := hplain.spec
  obtain ⟨hsplit, -⟩ := hsplit.spec
  obtain ⟨hagain, hcode⟩ := hagain.spec
  have hform : ∀ c ∈ cs, c.InOneForm := fun c hc => inOneForm_of_mem_wellFormed hc
  have hlines : split.output = linesOf false (cs.map inWords) :=
    hsplit.trans (linesOf_of_inOneForm hform)
  obtain ⟨hfinished, hobjects⟩ := delivery_database (cs.map inWords) entries.length
  rw [← hlines, List.map_map] at hobjects
  rw [← hlines] at hfinished
  have houtput : again.output = linesOf false ((cs.filter fun c => c.words ≠ []).map inWords) := by
    refine hagain.trans ?_
    rw [show Database.Reader.delivery _ = _ from rfl, hobjects]
    exact (congrArg (linesOf true) (wellFormed_inWords cs)).trans
      (linesOf_inWords _ fun c hc => by simpa using (List.mem_filter.1 hc).2)
  refine ⟨hplain, hlines, hfinished, ?_, hcode hfinished, houtput, ?_, fun c hc => ?_⟩
  · rw [hobjects, List.map_map]
    exact List.map_congr_left fun c _ => c.ofObject?_inWords
  · rw [houtput, hlines]
    exact linesOf_filter_iff cs
  · exact CompileCommand.words_eq_nil_iff (hform c hc)

/-- A world with one database, which has the given commands and nothing else. -/
def worldOf (content : Bytes) : World :=
  { files := ⟨[([], .directory), (["db"], .file content)], []⟩ }

/-- Lines of a database with arguments, a text to cut and a text without words. -/
theorem splits_lines_of_both_forms :
    let wordless : CompileCommand := { directory := "/w", file := "c.c", command := some "\t# cc" }
    let cs : List CompileCommand := [{ directory := "/w", file := "a.c", arguments := ["cc", ""] },
      { directory := "/w", file := "b.c", command := some "cc 'b c'" }, wordless]
    let content := database (linesOf false cs)
    let split := run ["parse", "db", "--split"] [] ⟨2026, 1, 1, 0⟩ (worldOf content)
    let again := run ["parse", "--split", "db"] [] ⟨2026, 1, 1, 1⟩ (worldOf (database split.output))
    split.output = linesOf false (cs.map inWords) ∧ again.code = some 0 ∧
      again.output ≠ split.output := by
  intro wordless cs content split again
  have hcommands : wellFormed
      ({ source := .ofBytes content content.length } : Reader).delivery.2.2 = cs := by
    decide +kernel
  have hplain : Prints ["parse", "db"] [] ⟨2026, 1, 1, 0⟩ (worldOf content) {} content :=
    .intro (i := ⟨0, false, none, .parse "db" 64 65536 false⟩) rfl rfl rfl (by decide) rfl rfl rfl
  have hsplit : Splits ["parse", "db", "--split"] [] ⟨2026, 1, 1, 0⟩ (worldOf content) {} content :=
    .intro (i := ⟨0, false, none, .parse "db" 64 65536 true⟩) rfl rfl rfl (by decide) rfl rfl rfl
  have hagain : Splits ["parse", "--split", "db"] [] ⟨2026, 1, 1, 1⟩
      (worldOf (database split.output)) {} (database split.output) :=
    .intro (i := ⟨0, false, none, .parse "db" 64 65536 true⟩) rfl rfl rfl (by decide) rfl rfl rfl
  obtain ⟨-, hlines, -, -, hcode, -, hsame, -⟩ := splits_lines hplain hsplit hagain
  rw [hcommands] at hlines hsame
  exact ⟨hlines, hcode, fun h => hsame.1 h wordless (by simp [cs, wordless]) (by decide +kernel)⟩

/-- A command whose text is blank has a line without an invocation, which is no record. -/
theorem blank_invocation_is_lost :
    let c : CompileCommand := { directory := "/a", file := "x.c", command := some " " }
    let content := database (linesOf false [c])
    let plain := run ["parse", "db"] [] ⟨2026, 1, 1, 0⟩ (worldOf content)
    let split := run ["parse", "db", "--split"] [] ⟨2026, 1, 1, 0⟩ (worldOf content)
    let entries := database split.output
    let again := run ["parse", "db", "--split"] [] ⟨2026, 1, 1, 1⟩ (worldOf entries)
    plain.output = linesOf false [c] ∧
      split.output = "\x7b\"directory\":\"/a\",\"file\":\"x.c\"\x7d\n" ∧
      wellFormed ({ source := .ofBytes entries entries.length } : Reader).delivery.2.2 = [] ∧
      again.code = some 0 ∧ again.output = "" := by
  decide +kernel

end Program

end IndexFeed
