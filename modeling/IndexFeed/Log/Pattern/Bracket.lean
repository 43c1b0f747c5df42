import IndexFeed.Log.Pattern.Escape

/-!
# Bracketed classes of a pattern

A class in brackets has characters, ranges, shorthands, named classes and further brackets as its
members, and operators between lists of them.  Of each only the depth of nesting is kept.  A class
of octets holds ASCII alone, so that none can be negated; a class of characters cannot disregard
their case, because it is not known which letters belong together.
-/

set_option autoImplicit false

namespace IndexFeed.Log.Pattern

/-- Parts next to each other: their number, and how deeply the deepest is nested. -/
structure Parts where
  count : Nat := 0
  depth : Nat := 0
  deriving DecidableEq, Repr, Inhabited

namespace Parts

/-- The parts and one more. -/
def push (p : Parts) (depth : Nat) : Parts := ⟨p.count + 1, max p.depth depth⟩

/-- How deeply all of them are nested: a list of several parts is a level of its own. -/
def nesting (p : Parts) : Nat := if p.count ≤ 1 then p.depth else p.depth + 1

end Parts

/-- An open bracket. -/
structure Bracket where
  /-- the members since the last operator -/
  members : Parts := {}
  /-- how deeply all that is nested which the last operator combines with them -/
  left : Option Nat := none
  deriving DecidableEq, Repr, Inhabited

namespace Bracket

/-- The bracket with one more member. -/
def push (b : Bracket) (depth : Nat) : Bracket := { b with members := b.members.push depth }

/-- How deeply the inside of the bracket is nested. -/
def nesting (b : Bracket) : Nat :=
  match b.left with
  | none => b.members.nesting
  | some left => max left b.members.nesting + 1

/-- How deeply the bracket is nested once it is closed. -/
def depth (b : Bracket) : Nat := b.nesting + 1

/-- The bracket behind an operator. -/
def operated (b : Bracket) : Bracket := { left := some b.nesting }

/-! ## Members -/

/-- A character can be a member. -/
def admits (f : Flags) (c : Char) : Bool := f.admitsChars && (f.unicode || c.toNat < 0x80)

/-- Reads a character, or a shorthand for some. -/
def member (f : Flags) : List Char → Option (Option Char × List Char)
  | [] => none
  | '\\' :: cs =>
    match Escape.read f cs with
    | some (.char c, rest) => if admits f c then some (some c, rest) else none
    | some (.shorthand, rest) => some (none, rest)
    | _ => none
  | c :: cs => if admits f c then some (some c, cs) else none

/-- Reads a character, a shorthand or a range.  A hyphen in front of another hyphen or of the
closing bracket makes no range. -/
def range (f : Flags) (cs : List Char) : Option (List Char) :=
  match member f cs with
  | none => none
  | some (first, rest) =>
    match f.skip rest with
    | '-' :: behind =>
      if f.ahead? behind == some ']' || f.ahead? behind == some '-' then some ('-' :: behind)
      else
        match first, member f (f.skip behind) with
        | some a, some (some b, rest) => if a ≤ b then some rest else none
        | _, _ => none
    | rest => some rest

/-- The names of classes. -/
def names : List String :=
  ["alnum", "alpha", "ascii", "blank", "cntrl", "digit", "graph", "lower", "print", "punct",
   "space", "upper", "word", "xdigit"]

/-- Whether a class is negated, and what follows. -/
def negation : List Char → Bool × List Char
  | '^' :: rest => (true, rest)
  | rest => (false, rest)

/-- Reads what follows the bracket of a named class: whether it is negated, and the rest. -/
def named? : List Char → Option (Bool × List Char)
  | ':' :: cs =>
    let (negated, name) := negation cs
    match name.dropWhile (· != ':') with
    | ':' :: ']' :: rest =>
      if names.contains (String.ofList (name.takeWhile (· != ':'))) then some (negated, rest)
      else none
    | _ => none
  | _ => none

/-! ## Brackets -/

/-- The number of hyphens in front, and what follows them. -/
def hyphens (f : Flags) (cs : List Char) : Nat × List Char :=
  match cs with
  | '-' :: rest =>
    let (n, rest) := hyphens f (f.skip rest)
    (n + 1, rest)
  | rest => (0, rest)
termination_by cs.length
decreasing_by
  have := (f.skip_suffix rest).length_le
  simp
  omega

/-- The number of members in front: hyphens, or a closing bracket that is the very first. -/
def firstMembers (f : Flags) (cs : List Char) : Nat × List Char :=
  match hyphens f cs with
  | (0, ']' :: rest) => (1, rest)
  | found => found

/-- Opens a bracket. -/
def opened (f : Flags) (cs : List Char) : Option (Bracket × List Char) :=
  let (negated, inside) := negation (f.skip cs)
  let (n, rest) := firstMembers f (f.skip inside)
  if negated && !f.unicode || 0 < n && !f.admitsChars then none
  else some ({ members := ⟨n, 0⟩ }, rest)

/-- Reads one thing other than a closing bracket: gives the brackets that are open behind it, outer
ones apart. -/
def step (f : Flags) (outer : List Bracket) (b : Bracket) (cs : List Char) :
    Option (List Bracket × Bracket × List Char) :=
  match cs with
  | '[' :: rest =>
    match named? rest with
    | some (negated, rest) =>
      if f.admitsChars && (f.unicode || !negated) then some (outer, b.push 0, rest) else none
    | none => (opened f rest).map fun (inner, rest) => (b :: outer, inner, rest)
  | '&' :: '&' :: rest | '-' :: '-' :: rest | '~' :: '~' :: rest => some (outer, b.operated, rest)
  | cs => (range f cs).map fun rest => (outer, b.push 0, rest)

/-! ## Laws -/

/-- A member takes up some of the text. -/
theorem member_length {f : Flags} {cs : List Char} {m : Option Char} {rest : List Char}
    (h : member f cs = some (m, rest)) : rest.length < cs.length := by
  unfold member at h
  split at h
  · cases h
  · split at h
    · rename_i hr
      split at h
      · cases h; exact Nat.lt_succ_of_le (Escape.read_suffix hr).length_le
      · cases h
    · rename_i hr
      cases h; exact Nat.lt_succ_of_le (Escape.read_suffix hr).length_le
    · cases h
  · split at h
    · cases h; simp
    · cases h

/-- A member or a range takes up some of the text. -/
theorem range_length {f : Flags} {cs rest : List Char} (h : range f cs = some rest) :
    rest.length < cs.length := by
  unfold range at h
  split at h
  · cases h
  · rename_i first r hm
    have hm := member_length hm
    have hs := (f.skip_suffix r).length_le
    split at h
    · rename_i behind hb
      rw [hb, List.length_cons] at hs
      split at h
      · cases h; simp only [List.length_cons]; omega
      · split at h
        · rename_i hn
          have hn := member_length hn
          have := (f.skip_suffix behind).length_le
          split at h
          · cases h; omega
          · cases h
        · cases h
    · cases h; omega

/-- Behind the mark of a negated class there is an end of the text. -/
theorem negation_length (cs : List Char) : (negation cs).2.length ≤ cs.length := by
  unfold negation
  split <;> simp

/-- Behind a named class there is an end of the text. -/
theorem named?_length {cs : List Char} {negated : Bool} {rest : List Char}
    (h : named? cs = some (negated, rest)) : rest.length ≤ cs.length := by
  unfold named? at h
  split at h
  · rename_i cs
    have hn := negation_length cs
    generalize negation cs = found at h hn
    simp only at h
    split at h
    · rename_i r hr
      have := (List.dropWhile_suffix (· != ':') (l := found.2)).length_le
      rw [hr] at this
      split at h
      · cases h; simp only [List.length_cons] at this ⊢; omega
      · cases h
    · cases h
  · cases h

/-- Behind hyphens there is an end of the text. -/
theorem hyphens_length (f : Flags) (cs : List Char) : (hyphens f cs).2.length ≤ cs.length := by
  fun_induction hyphens f cs with
  | case1 rest n r hr ih =>
    have := (f.skip_suffix rest).length_le
    rw [hr] at ih
    simp only [List.length_cons] at ih ⊢
    omega
  | case2 => simp

/-- Behind the first members there is an end of the text. -/
theorem firstMembers_length (f : Flags) (cs : List Char) :
    (firstMembers f cs).2.length ≤ cs.length := by
  have hh := hyphens_length f cs
  unfold firstMembers
  split
  · rename_i rest h
    rw [h] at hh
    simp only [List.length_cons] at hh ⊢
    omega
  · exact hh

/-- Behind an opening bracket and the first members there is an end of the text. -/
theorem opened_length {f : Flags} {cs : List Char} {b : Bracket} {rest : List Char}
    (h : opened f cs = some (b, rest)) : rest.length ≤ cs.length := by
  unfold opened at h
  have h₁ := (f.skip_suffix cs).length_le
  have h₂ := negation_length (f.skip cs)
  have h₃ := (f.skip_suffix (negation (f.skip cs)).2).length_le
  have h₄ := firstMembers_length f (f.skip (negation (f.skip cs)).2)
  simp only at h
  split at h
  · cases h
  · cases h; omega

/-- A step takes up some of the text. -/
theorem step_length {f : Flags} {outer : List Bracket} {b : Bracket} {cs : List Char}
    {outer' : List Bracket} {b' : Bracket} {rest : List Char}
    (h : step f outer b cs = some (outer', b', rest)) : rest.length < cs.length := by
  unfold step at h
  split at h
  · split at h
    · rename_i hn
      have hn := named?_length hn
      split at h
      · cases h; simp only [List.length_cons]; omega
      · cases h
    · rename_i r _ _
      cases ho : opened f r with
      | none => simp [ho] at h
      | some found =>
        have := opened_length ho
        rw [ho] at h
        cases h
        simp only [List.length_cons]
        omega
  · cases h; simp only [List.length_cons]; omega
  · cases h; simp only [List.length_cons]; omega
  · cases h; simp only [List.length_cons]; omega
  · cases hr : range f cs with
    | none => simp [hr] at h
    | some r =>
      rw [hr] at h
      cases h
      exact range_length hr

/-! ## Whole brackets -/

/-- Reads up to the closing bracket: how deeply the class is nested, and what follows it. -/
def read (f : Flags) (outer : List Bracket) (b : Bracket) (cs : List Char) :
    Option (Nat × List Char) :=
  have hl := (f.skip_suffix cs).length_le
  match hc : f.skip cs with
  | [] => none
  | ']' :: rest =>
    match outer with
    | [] => some (b.depth, rest)
    | parent :: outer =>
      have : rest.length < cs.length := by
        rw [hc, List.length_cons] at hl
        exact hl
      read f outer (parent.push b.depth) rest
  | next =>
    match hs : step f outer b next with
    | none => none
    | some (outer, b, rest) =>
      have : rest.length < cs.length := Nat.lt_of_lt_of_le (step_length hs) (hc ▸ hl)
      read f outer b rest
termination_by cs.length

/-- Behind a class there is an end of the text. -/
theorem read_length {f : Flags} {outer : List Bracket} {b : Bracket} {cs : List Char} {depth : Nat}
    {rest : List Char} (h : read f outer b cs = some (depth, rest)) : rest.length < cs.length := by
  fun_induction read f outer b cs with
  | case1 => cases h
  | case2 b cs hl r hc =>
    rw [hc, List.length_cons] at hl
    cases h
    omega
  | case3 b cs hl r hc parent outer hr ih => exact Nat.lt_trans (ih h) hr
  | case4 => cases h
  | case5 outer b cs hl next hn outer' b' r hs hr ih => exact Nat.lt_trans (ih h) hr

/-- Reads a class, what follows its bracket onwards. -/
def class? (f : Flags) (cs : List Char) : Option (Nat × List Char) :=
  match opened f cs with
  | some (b, rest) => read f [] b rest
  | none => none

/-- Behind a class there is an end of the text. -/
theorem class?_length {f : Flags} {cs : List Char} {depth : Nat} {rest : List Char}
    (h : class? f cs = some (depth, rest)) : rest.length < cs.length := by
  unfold class? at h
  split at h
  · rename_i ho
    have := opened_length ho
    have := read_length h
    omega
  · cases h

/-- Brackets in brackets and operators count as levels, members do not. -/
example :
    class? {} "]a-z[:alpha:]]x".toList = some (2, ['x']) ∧
      class? {} "a&&[b]]".toList = some (3, []) ∧ class? {} "z-a]".toList = none := by
  decide +kernel

end Bracket

end IndexFeed.Log.Pattern
