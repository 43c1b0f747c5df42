import IndexFeed.Log.Pattern.Bracket
import IndexFeed.Text.Letter

/-!
# Patterns

A pattern is a regular expression: `isPattern` says whether a text is one.  It is read once, part by
part.  What has been read is kept as far as it bears on what may follow: the flags, how deeply
things are nested, whether there is something to repeat, the groups that are open and the names of
groups.

The text of a pattern stands between braces, so it holds no closing brace: whatever would need
one (a counted repetition, a number of a character or a property in braces) is refused at its
opening brace.
-/

set_option autoImplicit false

namespace IndexFeed.Log.Pattern

/-- A part of a sequence. -/
inductive Part where
  /-- a change of flags, which cannot be repeated -/
  | flags
  /-- something that can, and how deeply it is nested -/
  | item (depth : Nat)
  deriving DecidableEq, Repr

/-- How deeply a part is nested. -/
def Part.depth : Part → Nat
  | .flags => 0
  | .item depth => depth

/-- Parts that match one after the other. -/
structure Sequence where
  before : Parts := {}
  last : Option Part := none
  deriving DecidableEq, Repr, Inhabited

namespace Sequence

/-- All parts of a sequence. -/
def parts (s : Sequence) : Parts :=
  match s.last with
  | none => s.before
  | some p => s.before.push p.depth

/-- The sequence with one more part. -/
def push (s : Sequence) (p : Part) : Sequence := ⟨s.parts, some p⟩

/-- The sequence with its last part repeated, if that can be. -/
def repeated? (s : Sequence) : Option Sequence :=
  match s.last with
  | some (.item depth) => some { s with last := some (.item (depth + 1)) }
  | _ => none

end Sequence

/-- What has been read of a group, or of the whole pattern outside groups. -/
structure Group where
  /-- the flags that hold now -/
  flags : Flags := {}
  /-- the alternatives that are complete -/
  alternatives : Parts := {}
  /-- the alternative that is being read -/
  sequence : Sequence := {}
  deriving DecidableEq, Repr, Inhabited

namespace Group

/-- The group with one more part. -/
def push (g : Group) (p : Part) : Group := { g with sequence := g.sequence.push p }

/-- The group behind a bar: the next alternative has the flags that hold now. -/
def alternated (g : Group) : Group :=
  { g with alternatives := g.alternatives.push g.sequence.parts.nesting, sequence := {} }

/-- How deeply the inside of the group is nested. -/
def nesting (g : Group) : Nat := g.alternated.alternatives.nesting

end Group

/-- What has been read of a pattern. -/
structure Reader where
  group : Group := {}
  /-- the groups around it, innermost first -/
  outer : List Group := []
  /-- the names of groups so far -/
  names : List (List Char) := []
  deriving DecidableEq, Repr, Inhabited

namespace Reader

/-- The flags that hold now. -/
def flags (r : Reader) : Flags := r.group.flags

/-- The reader behind one more part. -/
def push (r : Reader) (p : Part) : Reader := { r with group := r.group.push p }

/-! ## Groups -/

/-- The name of a group: it starts with a letter or an underscore; dots, brackets and numbers may
follow. -/
def isName : List Char → Bool
  | [] => false
  | c :: cs =>
    (c == '_' || Letter.isLetter c) &&
      cs.all fun c => c == '_' || c == '.' || c == '[' || c == ']' || Letter.isLetterOrNumber c

/-- Opens a group with some flags. -/
def entered (r : Reader) (flags : Flags) : Reader :=
  { r with group := { flags }, outer := r.group :: r.outer }

/-- Opens a group whose name comes next. -/
def openNamed (r : Reader) (cs : List Char) : Option (Reader × List Char) :=
  let name := cs.takeWhile (· != '>')
  match cs.dropWhile (· != '>') with
  | _ :: rest =>
    if isName name && !r.names.contains name then
      some ({ r.entered r.flags with names := name :: r.names }, rest)
    else none
  | [] => none

/-- Changes flags, for what follows or for a group that is opened with them.  At least one flag is
changed where no group is opened. -/
def openFlagged (r : Reader) (cs : List Char) : Option (Reader × List Char) :=
  let inList := fun c => c != ':' && c != ')'
  let list := cs.takeWhile inList
  let flags := r.flags.changed list
  if !Flags.isList list then none
  else
    match cs.dropWhile inList with
    | ':' :: rest => some (r.entered flags, rest)
    | _ :: rest =>
      if list.isEmpty then none
      else some ({ r with group := { r.group with flags } } |>.push .flags, rest)
    | [] => none

/-- Reads what follows an opening parenthesis.  There is no looking ahead or behind. -/
def openGroup (r : Reader) (cs : List Char) : Option (Reader × List Char) :=
  match cs with
  | '?' :: '=' :: _ | '?' :: '!' :: _ | '?' :: '<' :: '=' :: _ | '?' :: '<' :: '!' :: _ => none
  | '?' :: 'P' :: '<' :: rest | '?' :: '<' :: rest => r.openNamed rest
  | '?' :: rest => r.openFlagged rest
  | rest => some (r.entered r.flags, rest)

/-- Closes a group: the flags are again what they were in front of it. -/
def closed? (r : Reader) : Option Reader :=
  match r.outer with
  | parent :: outer =>
    some { r with group := parent.push (.item (r.group.nesting + 1)), outer }
  | [] => none

/-! ## Single parts -/

/-- Reads what follows a backslash. -/
def escaped (r : Reader) (cs : List Char) : Option (Reader × List Char) :=
  match Escape.read r.flags cs with
  | some (.char _, rest) => if r.flags.admitsChars then some (r.push (.item 0), rest) else none
  | some (_, rest) => some (r.push (.item 0), rest)
  | none => none

/-- What follows an operator of repetition: a question mark belongs to it. -/
def behindRepetition : List Char → List Char
  | '?' :: rest => rest
  | rest => rest

/-- Repeats the last part, in front of what follows the operator. -/
def repeat? (r : Reader) (cs : List Char) : Option (Reader × List Char) :=
  r.group.sequence.repeated?.map fun sequence =>
    ({ r with group := { r.group with sequence } }, behindRepetition cs)

/-- Adds a part that is a single character, if it fits. -/
def single (r : Reader) (fits : Bool) (cs : List Char) : Option (Reader × List Char) :=
  if fits then some (r.push (.item 0), cs) else none

/-- Reads one thing that starts with a character. -/
def step (r : Reader) (c : Char) (cs : List Char) : Option (Reader × List Char) :=
  match c with
  | '(' => r.openGroup (r.flags.skip cs)
  | ')' => r.closed?.map fun r => (r, cs)
  | '|' => some ({ r with group := r.group.alternated }, cs)
  | '[' => (Bracket.class? r.flags cs).map fun (depth, rest) => (r.push (.item depth), rest)
  | '?' | '*' | '+' => r.repeat? cs
  | '\x7b' => none
  | '\\' => r.escaped cs
  | '.' => r.single r.flags.unicode cs
  | '^' | '$' => r.single true cs
  | _ => r.single r.flags.admitsChars cs

/-! ## Laws -/

/-- Behind the name of a group there is an end of the text. -/
theorem openNamed_suffix {r r' : Reader} {cs rest : List Char}
    (h : r.openNamed cs = some (r', rest)) : rest <:+ cs := by
  unfold openNamed at h
  simp only at h
  split at h
  · rename_i c t hd
    split at h
    · cases h
      exact (List.suffix_cons c _).trans (hd ▸ List.dropWhile_suffix _)
    · cases h
  · cases h

/-- Behind a list of flags there is an end of the text. -/
theorem openFlagged_suffix {r r' : Reader} {cs rest : List Char}
    (h : r.openFlagged cs = some (r', rest)) : rest <:+ cs := by
  unfold openFlagged at h
  simp only at h
  split at h
  · cases h
  · split at h
    · rename_i t hd
      cases h
      exact (List.suffix_cons ':' _).trans (hd ▸ List.dropWhile_suffix _)
    · rename_i c t _ hd
      split at h
      · cases h
      · cases h
        exact (List.suffix_cons c _).trans (hd ▸ List.dropWhile_suffix _)
    · cases h

/-- Behind the opening of a group there is an end of the text. -/
theorem openGroup_suffix {r r' : Reader} {cs rest : List Char}
    (h : r.openGroup cs = some (r', rest)) : rest <:+ cs := by
  unfold openGroup at h
  split at h
  · cases h
  · cases h
  · cases h
  · cases h
  · exact (openNamed_suffix h).trans
      ((List.suffix_cons _ _).trans ((List.suffix_cons _ _).trans (List.suffix_cons _ _)))
  · exact (openNamed_suffix h).trans ((List.suffix_cons _ _).trans (List.suffix_cons _ _))
  · exact (openFlagged_suffix h).trans (List.suffix_cons _ _)
  · cases h; exact List.suffix_refl _

/-- Behind an escape there is an end of the text. -/
theorem escaped_suffix {r r' : Reader} {cs rest : List Char}
    (h : r.escaped cs = some (r', rest)) : rest <:+ cs := by
  unfold escaped at h
  split at h
  · rename_i he
    split at h
    · cases h; exact Escape.read_suffix he
    · cases h
  · rename_i he
    cases h; exact Escape.read_suffix he
  · cases h

/-- Behind a repetition there is an end of the text. -/
theorem behindRepetition_suffix (cs : List Char) : behindRepetition cs <:+ cs := by
  unfold behindRepetition
  split
  · exact List.suffix_cons _ _
  · exact List.suffix_refl _

/-- Repetition leaves an end of the text. -/
theorem repeat?_suffix {r r' : Reader} {cs rest : List Char}
    (h : r.repeat? cs = some (r', rest)) : rest <:+ cs := by
  simp only [repeat?, Option.map_eq_some_iff] at h
  obtain ⟨_, _, h⟩ := h
  cases h
  exact behindRepetition_suffix cs

/-- A part that takes up nothing more leaves all that follows its character. -/
theorem single_suffix {r r' : Reader} {fits : Bool} {cs rest : List Char}
    (h : r.single fits cs = some (r', rest)) : rest <:+ cs := by
  unfold single at h
  split at h
  · cases h; exact List.suffix_refl _
  · cases h

/-- What a step leaves is no longer than what follows its character. -/
theorem step_length {r r' : Reader} {c : Char} {cs rest : List Char}
    (h : r.step c cs = some (r', rest)) : rest.length ≤ cs.length := by
  unfold step at h
  split at h
  · exact ((openGroup_suffix h).trans (r.flags.skip_suffix cs)).length_le
  · simp only [Option.map_eq_some_iff] at h
    obtain ⟨_, _, h⟩ := h
    cases h; exact Nat.le_refl _
  · cases h; exact Nat.le_refl _
  · simp only [Option.map_eq_some_iff] at h
    obtain ⟨_, hb, h⟩ := h
    cases h; exact Nat.le_of_lt (Bracket.class?_length hb)
  · exact (repeat?_suffix h).length_le
  · exact (repeat?_suffix h).length_le
  · exact (repeat?_suffix h).length_le
  · cases h
  · exact (escaped_suffix h).length_le
  · exact (single_suffix h).length_le
  · exact (single_suffix h).length_le
  · exact (single_suffix h).length_le
  · exact (single_suffix h).length_le

/-! ## Whole patterns -/

/-- Reads to the end of the text. -/
def read (r : Reader) (cs : List Char) : Option Reader :=
  have hl := (r.flags.skip_suffix cs).length_le
  match hc : r.flags.skip cs with
  | [] => some r
  | c :: next =>
    match hs : r.step c next with
    | none => none
    | some (r, rest) =>
      have : rest.length < cs.length := by
        have := step_length hs
        rw [hc, List.length_cons] at hl
        omega
      read r rest
termination_by cs.length

end Reader

/-- How deeply the parts of a pattern can be nested. -/
def deepest : Nat := 250

/-- The text is a pattern: all its groups are closed, and it is not nested too deeply. -/
def isPattern (cs : List Char) : Bool :=
  match Reader.read {} cs with
  | some r => r.outer.isEmpty && r.group.nesting ≤ deepest
  | none => false

/-- Patterns, and texts with an open group, with an open bracket and with nothing to repeat. -/
example :
    isPattern "(a|b)*[^c-e]+?(?P<n>.)".toList = true ∧ isPattern ['('] = false ∧
      isPattern "[a".toList = false ∧ isPattern "a|*".toList = false := by
  decide +kernel

/-- Flags that are set in a group do not hold behind it. -/
example : isPattern "((?-u)\\d)e".toList = true ∧ isPattern "((?-u)e)\\d".toList = false := by
  decide +kernel

end IndexFeed.Log.Pattern
