import IndexFeed.Command.Basic
import IndexFeed.Proofs.Json.Width

/-!
# How many words and how long a path

A text is cut into no more words than it has characters, whether its quotes match or not, and a path
that is joined from two has at most one octet more than both together.
-/

set_option autoImplicit false

namespace IndexFeed

/-! ## Words -/

namespace ShellWords

/-- A result with at most one word more than what it is made from. -/
theorem length_map_le {read : Option (List Char × List (List Char))} {n : Nat}
    {f : List Char × List (List Char) → List Char × List (List Char)} {word : List Char}
    {later : List (List Char)}
    (hread : ∀ {word : List Char} {later : List (List Char)},
      read = some (word, later) → later.length ≤ n)
    (hf : ∀ x, (f x).2.length ≤ x.2.length + 1) (h : read.map f = some (word, later)) :
    later.length ≤ n + 1 := by
  obtain ⟨⟨w, l⟩, hx, hfx⟩ := Option.map_eq_some_iff.1 h
  have hle := hf (w, l)
  rw [hfx] at hle
  exact Nat.le_trans hle (Nat.succ_le_succ (hread hx))

/-- Each word but the one in progress begins at a character of its own. -/
theorem length_read_le {mode : Mode} {cs word : List Char} {later : List (List Char)}
    (h : read mode cs = some (word, later)) : later.length ≤ cs.length := by
  fun_induction read mode cs generalizing word later with
  | case1 | case2 | case3 =>
    cases h
    exact Nat.le_refl 0
  | case4 | case5 | case6 | case7 => cases h
  | case8 _ _ _ ih | case9 _ _ _ _ ih | case11 _ _ _ ih | case12 _ _ _ ih | case16 _ _ _ ih
  | case18 _ _ _ ih | case19 _ _ _ _ ih => exact Nat.le_succ_of_le (ih h)
  | case10 _ _ _ _ _ _ _ ih =>
    refine length_map_le ih ?_ h
    exact fun _ => Nat.le_refl _
  | case13 _ _ _ ih | case14 _ _ _ _ _ _ ih | case15 _ _ ih | case17 _ _ _ ih
  | case20 _ _ _ _ ih | case21 _ _ ih =>
    refine length_map_le ih ?_ h
    exact fun _ => Nat.le_succ _

/-- There are no more words than characters. -/
theorem length_split?_le {s : String} {words : List String} (h : split? s = some words) :
    words.length ≤ s.toList.length := by
  obtain ⟨⟨word, later⟩, hread, rfl⟩ := Option.map_eq_some_iff.1 h
  rw [List.length_map]
  exact length_read_le hread

end ShellWords

namespace Blank

theorem length_wordsFrom_le (cs : List Char) :
    (wordsFrom cs).2.length + (if (wordsFrom cs).1.isEmpty then 0 else 1) ≤ cs.length := by
  induction cs with
  | nil => exact Nat.le_refl 0
  | cons c cs ih =>
    rcases hrest : wordsFrom cs with ⟨word, later⟩
    rw [hrest] at ih
    rw [wordsFrom, hrest, List.length_cons]
    dsimp only at ih ⊢
    split
    · split
      · next hempty =>
        rw [if_pos hempty] at ih
        exact Nat.le_succ_of_le ih
      · next hne =>
        rw [if_neg hne] at ih
        exact Nat.le_succ_of_le ih
    · exact Nat.succ_le_succ (Nat.le_trans (Nat.le_add_right ..) ih)

theorem length_words_le (s : String) : (words s).length ≤ s.toList.length := by
  have hle := length_wordsFrom_le s.toList
  rw [words]
  dsimp only
  rw [List.length_map]
  split
  · omega
  · next hne =>
    rw [if_neg hne] at hle
    exact hle

end Blank

namespace CompileCommand

theorem length_wordsOf_le (command : String) :
    (wordsOf command).length ≤ command.toList.length := by
  unfold wordsOf
  rcases hsplit : ShellWords.split? command with _ | words
  · exact Blank.length_words_le command
  · exact ShellWords.length_split?_le hsplit

/-! ## Paths -/

/-- A path seen from another has both in it at most, and a slash. -/
theorem width_joinPath_le (base path : List Char) :
    Json.width (joinPath base path) ≤ Json.width base + Json.width path + 1 := by
  have hslash : Json.charWidth '/' = 1 := by decide
  unfold joinPath
  split
  · omega
  · split
    · rw [Json.width_append]
      omega
    · rw [Json.width_append, Json.width_cons]
      omega

theorem textWidth_filePath_le (c : CompileCommand) :
    Json.textWidth c.filePath ≤ Json.textWidth c.directory + Json.textWidth c.file + 1 := by
  rw [filePath, Json.textWidth, String.toList_ofList]
  exact width_joinPath_le _ _

end CompileCommand

end IndexFeed
