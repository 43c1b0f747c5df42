import IndexFeed.Queue.Worker

/-!
# Invocations in quotes

Any list of words can be written as one text: each word between single quotes, with blanks between
them.  The text is cut into these words again, whatever characters are in them, so the list and the
text are the same invocation to a worker.
-/

set_option autoImplicit false

namespace IndexFeed

/-! ## Words in quotes -/

namespace ShellWords

/-- Between single quotes a word is read as it is, up to the quote that closes it. -/
theorem read_quotedBody (word r : List Char) :
    read .single (quotedBody word ++ '\'' :: r) =
      (read .plain r).map fun (rest, later) => (word ++ rest, later) := by
  induction word with
  | nil => simp [quotedBody, read]
  | cons c word ih =>
    by_cases hc : c = '\''
    · -- the quote closes the quotes, stands behind its backslash and opens them again
      subst hc
      have hquote : read .single (quotedBody ('\'' :: word) ++ '\'' :: r) =
          (read .single (quotedBody word ++ '\'' :: r)).map
            fun (rest, later) => ('\'' :: rest, later) := by
        simp [quotedBody, read, enter, isSeparator, Function.comp_def]
      rw [hquote, ih]
      simp [Function.comp_def]
    · simp [quotedBody, read, hc, ih, Function.comp_def]

/-- A word in quotes begins where a word can begin, and is never a comment. -/
theorem read_quoted (word r : List Char) :
    read .gap (quoted word ++ r) =
      (read .plain r).map fun (rest, later) => ([], (word ++ rest) :: later) := by
  have hopen : read .gap (quoted word ++ r) =
      (read .single (quotedBody word ++ '\'' :: r)).map fun (rest, later) => ([], rest :: later) := by
    simp [quoted, read, enter, isSeparator]
  rw [hopen, read_quotedBody]
  simp [Function.comp_def]

theorem read_intercalate (words : List (List Char)) :
    read .gap ([' '].intercalate (words.map quoted)) = some ([], words) := by
  induction words with
  | nil => simp [read]
  | cons word words ih =>
    cases words with
    | nil =>
      have hlast := read_quoted word []
      simpa [read] using hlast
    | cons next words =>
      have hblank : read .plain (' ' :: [' '].intercalate ((next :: words).map quoted)) =
          some ([], next :: words) := by
        rw [read, if_pos (by decide), ih, Option.map_some]
      rw [List.map_cons, List.map_cons, List.intercalate_cons_cons, ← List.map_cons,
        List.append_assoc, read_quoted, List.singleton_append, hblank]
      simp

/-- **A text is cut into the words that have been joined.** -/
theorem split?_join (words : List String) : split? (join words) = some words := by
  have hread := read_intercalate (words.map String.toList)
  rw [List.map_map] at hread
  simp only [split?, join, String.toList_ofList]
  rw [show (words.map fun w => quoted w.toList) = words.map (quoted ∘ String.toList) from rfl, hread]
  simp [Function.comp_def]

example : join ["a'b", "", "#"] = "'a'\\''b' '' '#'" := by decide +kernel

end ShellWords

/-! ## Commands -/

namespace CompileCommand

open Queue.Worker (handleIndex react)

theorem wordsOf_join (words : List String) : wordsOf (ShellWords.join words) = words := by
  simp [wordsOf, ShellWords.split?_join]

/-- What a worker does about a command depends on its words, its path and its file alone. -/
theorem react_congr {c d : CompileCommand} (hwords : c.words = d.words)
    (hdirectory : c.directory = d.directory) (hfile : c.file = d.file) (jobId : UInt64) :
    handleIndex jobId c = handleIndex jobId d ∧
      ∀ (o : Queue.Options) (s : Queue.Worker.State),
        react o s (.task (.index jobId c)) = react o s (.task (.index jobId d)) := by
  have hreply : handleIndex jobId c = handleIndex jobId d := by
    simp only [handleIndex, filePath, hwords, hdirectory, hfile]
  refine ⟨hreply, fun o s => ?_⟩
  simp only [react, hreply, hfile]

/-- **The two forms of an invocation denote the same job.** Take any list of words, and the command
whose invocation is one text, the words in quotes.  Its words are those of the list, and so the answer
of a worker is the same as for the command that lists them, in whatever state the worker is. -/
theorem quoted_same_job (arguments : List String) (directory file : String)
    (output : Option String) :
    let listed : CompileCommand := { directory, file, arguments, output }
    let quoted : CompileCommand :=
      { directory, file, command := some (ShellWords.join arguments), output }
    listed.words = arguments ∧ quoted.words = arguments ∧
      ∀ jobId : UInt64, handleIndex jobId quoted = handleIndex jobId listed ∧
        ∀ (o : Queue.Options) (s : Queue.Worker.State),
          react o s (.task (.index jobId quoted)) = react o s (.task (.index jobId listed)) := by
  intro listed quoted
  have hlisted : listed.words = arguments := by
    cases arguments <;> simp [listed, words]
  have hquoted : quoted.words = arguments := by
    simp [quoted, words, wordsOf_join]
  exact ⟨hlisted, hquoted, react_congr (hquoted.trans hlisted.symm) rfl rfl⟩

end CompileCommand

end IndexFeed
