import IndexFeed.Command.Basic

/-!
# Texts without words

An invocation in one text may have no words at all.  That comes of a text with nothing on its lines but
blanks and comments, and of no other (`wordsOf_eq_nil_iff`): a text whose quotes do not match has a quote in
it, and so a word.
-/

set_option autoImplicit false

namespace IndexFeed

/-! ## Lines without words -/

namespace ShellWords

/-- The separators on one line. -/
def isGap (c : Char) : Bool := c == ' ' || c == '\t'

/-- Nothing is on a line but spaces and tabs, and perhaps a comment behind them. -/
def Bare (line : List Char) : Prop := ∀ c, (line.dropWhile isGap).head? = some c → c = '#'

variable {c : Char} {cs line : List Char}

theorem bare_nil : Bare [] := nofun

theorem bare_comment (line : List Char) : Bare ('#' :: line) := by
  intro c hc
  exact (Option.some.inj hc).symm

theorem bare_gap (hc : isGap c = true) : Bare (c :: line) ↔ Bare line := by
  rw [Bare, List.dropWhile_cons_of_pos hc, Bare]

theorem not_bare (hc : ¬isGap c = true) (hcomment : c ≠ '#') : ¬Bare (c :: line) := by
  intro h
  rw [Bare, List.dropWhile_cons_of_neg hc] at h
  exact hcomment (h c rfl)

theorem splitOn_cons (c : Char) (cs : List Char) : (c :: cs).splitOn '\n' =
    if c = '\n' then [] :: cs.splitOn '\n' else (cs.splitOn '\n').modifyHead (c :: ·) := by
  simp only [List.splitOn_eq_splitOnP, List.splitOnP_cons_eq_if_modifyHead, beq_iff_eq]

/-- There is a first line, and a character at its head belongs to it. -/
theorem exists_splitOn_cons (hc : c ≠ '\n') (cs : List Char) : ∃ line lines,
    cs.splitOn '\n' = line :: lines ∧ (c :: cs).splitOn '\n' = (c :: line) :: lines := by
  obtain ⟨line, lines, hlines⟩ := List.exists_cons_of_ne_nil (List.splitOn_ne_nil '\n' cs)
  refine ⟨line, lines, hlines, ?_⟩
  rw [splitOn_cons, if_neg hc, hlines, List.modifyHead_cons]

/-! ## Reading -/

/-- No words are read if all lines are bare, and in a comment the rest of the line does not matter. -/
theorem read_eq_nil_iff (cs : List Char) :
    ((read .gap cs).map Prod.snd = some [] ↔ ∀ line ∈ cs.splitOn '\n', Bare line) ∧
      ((read .comment cs).map Prod.snd = some [] ↔ ∀ line ∈ (cs.splitOn '\n').tail, Bare line) := by
  induction cs with
  | nil => simp [read, bare_nil]
  | cons c cs ih =>
    obtain ⟨ihgap, ihcomment⟩ := ih
    by_cases hnewline : c = '\n'
    · subst hnewline
      rw [splitOn_cons, if_pos rfl]
      simp [read, isSeparator, ihgap, bare_nil]
    · obtain ⟨line, lines, hlines, hcons⟩ := exists_splitOn_cons hnewline cs
      rw [hlines, List.forall_mem_cons] at ihgap
      rw [hlines, List.tail_cons] at ihcomment
      rw [hcons, List.forall_mem_cons, List.tail_cons]
      constructor
      · by_cases hseparator : isSeparator c = true
        · have hgap : isGap c = true := by simpa [isSeparator, isGap, hnewline] using hseparator
          rw [read, if_pos hseparator, ihgap, bare_gap hgap]
        · by_cases hcomment : c = '#'
          · subst hcomment
            rw [read, if_neg hseparator, if_pos (beq_self_eq_true _), ihcomment,
              and_iff_right (bare_comment line)]
          · -- a word begins
            have hword : (read .gap (c :: cs)).map Prod.snd ≠ some [] := by
              rw [read, if_neg hseparator, if_neg (by simpa using hcomment)]
              simp
            have hgap : ¬isGap c = true := fun h => hseparator (by simp_all [isSeparator, isGap])
            exact iff_of_false hword fun h => not_bare hgap hcomment h.1
      · rw [read, if_neg (by simpa using hnewline), ihcomment]

/-- A text without quotes and backslashes is cut into words. -/
theorem isSome_read_of_plain (h : ∀ c ∈ cs, enter c = (.plain, [c])) :
    (read .gap cs).isSome ∧ (read .comment cs).isSome ∧ (read .plain cs).isSome := by
  induction cs with
  | nil => simp [read]
  | cons c cs ih =>
    obtain ⟨hgap, hcomment, hplain⟩ := ih fun d hd => h d (List.mem_cons_of_mem c hd)
    have hc := h c List.mem_cons_self
    refine ⟨?_, ?_, ?_⟩
    · rw [read, hc]
      split
      · exact hgap
      · split
        · exact hcomment
        · rwa [Option.isSome_map]
    · rw [read]
      split
      · exact hgap
      · exact hcomment
    · rw [read, hc]
      split
      · rwa [Option.isSome_map]
      · rwa [Option.isSome_map]

theorem split?_eq_nil_iff {s : String} :
    split? s = some [] ↔ ∀ line ∈ s.toList.splitOn '\n', Bare line := by
  rw [← (read_eq_nil_iff s.toList).1, split?]
  cases read .gap s.toList <;> simp

end ShellWords

namespace Blank

variable {cs : List Char}

/-- Words come of every character that is not blank. -/
theorem isBlank_of_wordsFrom (h : wordsFrom cs = ([], [])) : ∀ c ∈ cs, isBlank c = true := by
  induction cs with
  | nil => simp
  | cons c cs ih =>
    rw [wordsFrom] at h
    dsimp only at h
    split at h
    · next hblank =>
      rw [Prod.mk.injEq] at h
      have hrest : wordsFrom cs = ([], []) := by
        rcases hread : wordsFrom cs with ⟨word, later⟩
        rw [hread] at h
        cases word with
        | nil => simpa using h
        | cons d word => simp at h
      exact List.forall_mem_cons.2 ⟨hblank, ih hrest⟩
    · simp at h

theorem isBlank_of_words {s : String} (h : words s = []) : ∀ c ∈ s.toList, isBlank c = true := by
  refine isBlank_of_wordsFrom ?_
  rcases hread : wordsFrom s.toList with ⟨word, later⟩
  rw [words, hread] at h
  cases word with
  | nil => simpa using h
  | cons d word => simp at h

end Blank

namespace CompileCommand

/-- **An invocation has no words if its text is blank but for comments**, and only then. -/
theorem wordsOf_eq_nil_iff {text : String} :
    wordsOf text = [] ↔ ∀ line ∈ text.toList.splitOn '\n', ShellWords.Bare line := by
  rw [← ShellWords.split?_eq_nil_iff, wordsOf]
  cases hsplit : ShellWords.split? text with
  | some words => simp
  | none =>
    refine iff_of_false (fun hwords => ?_) nofun
    -- quotes and backslashes are not blank, so without words there are none that do not match
    have hplain : ∀ c ∈ text.toList, ShellWords.enter c = (.plain, [c]) := by
      intro c hc
      have hblank := Blank.isBlank_of_words hwords c hc
      have hquotes : c ≠ '\"' ∧ c ≠ '\'' ∧ c ≠ '\\' := by
        refine ⟨?_, ?_, ?_⟩ <;> rintro rfl <;> exact absurd hblank (by decide)
      simp [ShellWords.enter, hquotes]
    have hsome := (ShellWords.isSome_read_of_plain hplain).1
    rw [ShellWords.split?, Option.map_eq_none_iff] at hsplit
    rw [hsplit] at hsome
    cases hsome

example : wordsOf " \t# cc x.c\n\n#" = [] := by decide +kernel

end CompileCommand

end IndexFeed
