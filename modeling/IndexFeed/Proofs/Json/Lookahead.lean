import IndexFeed.Proofs.Json.Locality

/-!
# How far readers look ahead

The readers of words, strings, escapes and surrogates stop behind the last octet that they look at.
Numbers end in front of an octet that has been looked at, and so may the values around them.  So all
of them depend on what they have seen and nothing else, faults and their positions included.
-/

set_option autoImplicit false

namespace IndexFeed.Json

variable {α : Type} {k : Nat} {c : Cursor}

/-- A reader of places, with a value that goes with each place. -/
def giving (a : α) (F : Cursor → Except Fault Cursor) (c : Cursor) : Outcome α :=
  match F c with
  | .ok d => .ok (a, d)
  | .error f => .error f

/-! ## Words and strings -/

theorem local_takeWord (word : Bytes) (a : α) : Local 0 (giving a (takeWord word)) := by
  induction word with
  | nil => exact fun c => .pure
  | cons w word ih =>
    intro c
    refine .take (E := fun c => c.behind .endInValue)
      (G := fun b c => if b = w then giving a (takeWord word) c
        else .error (c.behind .expectedIdent))
      (Nat.le_refl 0) (Nat.zero_le 1) (fun _ => .behind (Nat.le_refl 1))
      (fun b r _ => .ite (fun _ => ih _) fun _ => .behind (Nat.zero_le _)) fun c => ?_
    rw [giving, takeWord]
    cases c.rest with
    | nil => rfl
    | cons b r =>
      dsimp only
      by_cases hb : b = w
      · rw [if_pos hb, if_pos hb, giving]
      · rw [if_neg hb, if_neg hb]

theorem readQuad_of_short (h : c.rest.length < 4) :
    readQuad c = .error ((c.advance c.rest.length).behind .endInString) := by
  rw [Cursor.advance, List.drop_length]
  unfold readQuad
  split
  · next hr =>
    rw [hr] at h
    simp only [List.length_cons] at h
    omega
  · rfl

/-- What four octets of a string stand for, behind them. -/
def quadEnd (x y z w : UInt8) (c : Cursor) : Outcome Nat :=
  match Octet.hexQuad? x y z w with
  | some n => .ok (n, c)
  | none => .error (c.behind .invalidEscape)

theorem readQuad_of_four {c : Cursor} {x y z w : UInt8} {r : Bytes}
    (hr : c.rest = x :: y :: z :: w :: r) :
    readQuad c = quadEnd x y z w ⟨c.index + 4, r⟩ := by
  cases hquad : Octet.hexQuad? x y z w <;> simp only [readQuad, hr, quadEnd, hquad]

theorem local_quadEnd (x y z w : UInt8) : Local 0 (quadEnd x y z w) := by
  intro c
  unfold quadEnd
  cases Octet.hexQuad? x y z w with
  | some n => exact .pure
  | none => exact .behind (Nat.zero_le _)

/-- Four octets are taken, or all that are left. -/
theorem local_readQuad : Local 0 readQuad := by
  intro c
  by_cases hshort : c.rest.length < 4
  · -- the end of the text has been seen
    have hend : LocalAt 1 (fun d => (.error (d.behind .endInString) : Outcome Nat))
      (c.advance c.rest.length) := .behind (Nat.le_refl 1)
    refine hend.of_step (Nat.add_le_add (Nat.le_add_right _ _) (Nat.zero_le 1)) (Nat.le_refl _)
      (readQuad_of_short hshort) fun m c' hagree hm => ?_
    have hsame := hagree.rest_eq (Nat.le_trans hend.reach hm)
    exact ⟨_, by rw [readQuad_of_short (hsame ▸ hshort), hsame], hagree.advance _⟩
  · obtain ⟨x, y, z, w, r, hr⟩ : ∃ x y z w r, c.rest = x :: y :: z :: w :: r := by
      rcases hr : c.rest with _ | ⟨x, _ | ⟨y, _ | ⟨z, _ | ⟨w, r⟩⟩⟩⟩
      case cons.cons.cons.cons => exact ⟨x, y, z, w, r, rfl⟩
      all_goals exact absurd (by simp [hr]) hshort
    have hfour := local_quadEnd x y z w ⟨c.index + 4, r⟩
    refine hfour.of_step (Nat.le_add_right _ _) (Nat.le_refl _) (readQuad_of_four hr)
      fun m c' hagree hm => ?_
    have hseen := Nat.le_trans hfour.reach hm
    obtain ⟨r', hr', hnext⟩ := hagree.append (p := [x, y, z, w]) hr hseen
    exact ⟨_, readQuad_of_four hr', hnext⟩

theorem local_takeInPair (wanted : UInt8) : Local 0 (giving () (takeInPair wanted)) := by
  intro c
  refine .take (E := fun c => c.behind .endInString)
    (G := fun b c => if b = wanted then .ok ((), c) else .error (c.behind .brokenPair))
    (Nat.le_refl 0) (Nat.zero_le 1) (fun _ => .behind (Nat.le_refl 1))
    (fun b r _ => .ite (fun _ => .pure) fun _ => .behind (Nat.zero_le _)) fun c => ?_
  rw [giving, takeInPair]
  cases c.rest with
  | nil => rfl
  | cons b r =>
    dsimp only
    by_cases hb : b = wanted
    · rw [if_pos hb, if_pos hb]
    · rw [if_neg hb, if_neg hb]

/-- The second half of a surrogate pair behind its four digits. -/
def pairEnd (leading n : Nat) (c : Cursor) : Outcome Bytes :=
  if isTrailing n then .ok (scalarOctets (pairValue leading n), c)
  else .error (c.behind .loneSurrogate)

theorem readTrailing_eq (leading : Nat) (c : Cursor) : readTrailing leading c =
    onward (giving () (takeInPair Octet.backslash) c) fun _ c =>
      onward (giving () (takeInPair Octet.letterU) c) fun _ c =>
        onward (readQuad c) (pairEnd leading) := by
  simp only [readTrailing, bind, Except.bind, giving]
  cases takeInPair Octet.backslash c with
  | error e => rfl
  | ok c =>
    dsimp only [onward]
    cases takeInPair Octet.letterU c with
    | error e => rfl
    | ok c =>
      dsimp only
      cases readQuad c <;> rfl

theorem local_readTrailing (leading : Nat) : Local 0 (readTrailing leading) := by
  have hend : ∀ n, Local 0 (pairEnd leading n) := fun n c =>
    .ite (fun _ => .pure) fun _ => .behind (Nat.zero_le _)
  have hquad : Local 0 fun c => onward (readQuad c) (pairEnd leading) := fun c =>
    (local_readQuad c).bind (fun n d _ => hend n d) fun _ => rfl
  have hletter : Local 0 fun c => onward (giving () (takeInPair Octet.letterU) c) fun _ c =>
      onward (readQuad c) (pairEnd leading) := fun c =>
    (local_takeInPair Octet.letterU c).bind (fun _ d _ => hquad d) fun _ => rfl
  exact fun c => (local_takeInPair Octet.backslash c).bind (fun _ d _ => hletter d)
    (readTrailing_eq leading)

theorem local_readNumbered : Local 0 readNumbered := by
  intro c
  refine (local_readQuad c).bind (G := fun n c =>
    if isTrailing n then .error (c.behind .loneSurrogate)
    else if isLeading n then readTrailing n c
    else .ok (scalarOctets n, c)) (fun n d _ => ?_) fun c => ?_
  · exact .ite (fun _ => .behind (Nat.zero_le _))
      fun _ => .ite (fun _ => local_readTrailing n d) fun _ => .pure
  · simp only [readNumbered, bind, Except.bind]
    cases readQuad c <;> rfl

/-- What stands for an escape behind its letter. -/
def escapeEnd (b : UInt8) (c : Cursor) : Outcome Bytes :=
  match simpleEscape? b with
  | some x => .ok ([x], c)
  | none => if b = Octet.letterU then readNumbered c else .error (c.behind .invalidEscape)

theorem local_readEscape : Local 0 readEscape := by
  intro c
  refine .take (E := fun c => c.behind .endInString) (G := escapeEnd)
    (Nat.le_refl 0) (Nat.zero_le 1) (fun _ => .behind (Nat.le_refl 1)) (fun b r _ => ?_)
    fun _ => rfl
  unfold escapeEnd
  cases simpleEscape? b with
  | some x => exact .pure
  | none => exact .ite (fun _ => local_readNumbered _) fun _ => .behind (Nat.zero_le _)

/-- A piece of a string behind its backslash. -/
def escapedPiece (c : Cursor) : Outcome (Option Bytes) :=
  match readEscape c with
  | .ok (bs, d) => .ok (some bs, d)
  | .error e => .error e

theorem local_escapedPiece : Local 0 escapedPiece := fun c =>
  (local_readEscape c).map (g := some) fun c => by
    rw [escapedPiece]
    cases readEscape c <;> rfl

theorem local_readPiece : Local 0 readPiece := by
  intro c
  refine .take (E := fun c => c.behind .endInString)
    (G := fun b c => if b = Octet.quote then .ok (none, c)
      else if b = Octet.backslash then escapedPiece c
      else if b < 0x20 then .error (c.behind .controlCharacter)
      else .ok (some [b], c))
    (Nat.le_refl 0) (Nat.zero_le 1) (fun _ => .behind (Nat.le_refl 1)) (fun b r _ => ?_)
    fun _ => rfl
  exact .ite (fun _ => .pure) fun _ => .ite (fun _ => local_escapedPiece _) fun _ =>
    .ite (fun _ => .behind (Nat.zero_le _)) fun _ => .pure

/-- A string behind one of its pieces, or behind its quote. -/
def octetsEnd : Option Bytes → Cursor → Outcome Bytes
  | none, c => .ok ([], c)
  | some bs, c => onward (readOctets c) fun more d => .ok (bs ++ more, d)

theorem local_readOctets : Local 0 readOctets := by
  intro c
  induction hn : c.rest.length using Nat.strongRecOn generalizing c with
  | ind n ih =>
    refine (local_readPiece c).bind (G := octetsEnd) (fun p d hp => ?_) fun c => ?_
    · have hlt := hn ▸ Cursor.length_rest_lt (readPiece_lt hp)
      cases p with
      | none => exact .pure
      | some bs => exact (ih _ hlt d rfl).map fun _ => rfl
    · rw [readOctets]
      split
      · next he => rw [he, onward]
      · next hd => rw [hd, onward, octetsEnd]
      · next bs d hd =>
        rw [hd, onward, octetsEnd]
        cases readOctets d <;> rfl

/-- The text of the octets of a string. -/
def stringEnd (bs : Bytes) (c : Cursor) : Outcome String :=
  match Utf8.decode bs with
  | .ok s => .ok (s, c)
  | .error left => .error ⟨.invalidCodePoint, some ⟨c, .behind left⟩, [], c, false⟩

theorem local_readString : Local 0 readString := by
  intro c
  refine (local_readOctets c).bind (G := stringEnd) (fun bs d _ => ?_) fun c => ?_
  · unfold stringEnd
    cases Utf8.decode bs with
    | ok s => exact .pure
    | error left => exact .behindBy left (Nat.zero_le _)
  · rw [readString]
    cases readOctets c <;> rfl

/-! ## Numbers -/

theorem local_finishNumber (negative : Bool) (s : Nat) (e : Int) :
    Local 1 (finishNumber negative s e) := by
  intro c
  unfold finishNumber
  cases magnitude? s e with
  | some x => exact .pure
  | none => exact .besideLook (Nat.le_refl 1)

/-- Where digits do not fit any more, those behind them make no difference. -/
theorem absorb_of_take {limit s : Nat} {ds es : Bytes} (hused : (absorb limit s ds).2 < ds.length)
    (h : es.take ((absorb limit s ds).2 + 1) = ds.take ((absorb limit s ds).2 + 1)) :
    absorb limit s es = absorb limit s ds ∧ (absorb limit s ds).2 < es.length := by
  induction ds generalizing s es with
  | nil => cases hused
  | cons b ds ih =>
    cases es with
    | nil => cases h
    | cons b' es =>
      rw [List.take_succ_cons, List.take_succ_cons, List.cons.injEq] at h
      obtain ⟨rfl, h⟩ := h
      rw [absorb, absorb] at *
      dsimp only at *
      by_cases hfits : s * 10 + Octet.digitValue b' < limit
      · simp only [if_pos hfits, List.length_cons, Nat.add_lt_add_iff_right] at hused h ⊢
        obtain ⟨hsame, hlt⟩ := ih hused h
        exact ⟨by rw [hsame], hlt⟩
      · simp only [if_neg hfits]
        exact ⟨trivial, Nat.succ_pos _⟩

/-- What the digits of an exponent come to. -/
def exponentEnd (negative : Bool) (s : Nat) (e : Int) (down : Bool) (ds : Bytes) (c : Cursor) :
    Outcome Number :=
  let (places, used) := absorb 0x80000000 0 ds
  if used < ds.length then
    if s ≠ 0 ∧ !down then .error ((c.advance (used + 1)).behind .numberOutOfRange)
    else .ok (.signed negative .zero, c.advance ds.length)
  else
    finishNumber negative s (if down then e - (places : Int) else e + (places : Int))
      (c.advance ds.length)

/-- An exponent behind its sign. -/
def exponentDigits (negative : Bool) (s : Nat) (e : Int) (down : Bool) (c : Cursor) :
    Outcome Number :=
  match c.rest with
  | [] => .error (c.behind .endInValue)
  | b :: _ =>
    if !Octet.isDigit b then .error ((c.advance 1).behind .invalidNumber)
    else exponentEnd negative s e down c.digits c

theorem readExponent_eq (negative : Bool) (s : Nat) (e : Int) (c : Cursor) :
    readExponent negative s e c =
      exponentDigits negative s e (exponentSign c).1 (exponentSign c).2 := rfl

section Exponent

variable (negative : Bool) (s : Nat) (e : Int) (down : Bool)

theorem local_exponentEnd (ds : Bytes) : Local 1 (exponentEnd negative s e down ds) := by
  intro c
  unfold exponentEnd
  rcases absorb 0x80000000 0 ds with ⟨places, used⟩
  refine .ite (fun _ => .ite (fun _ => ?_) fun _ => ?_) fun _ => ?_
  · exact (LocalAt.behind (Nat.zero_le _)).advance (Nat.zero_le 1) (by omega)
  · exact (LocalAt.pure (k := 1)).advance (Nat.le_refl 1) (Nat.le_add_right _ _)
  · exact (local_finishNumber negative s _ _).advance (Nat.le_refl 1) (Nat.le_add_right _ _)

/-- Digits behind one that makes the exponent too large are not looked at. -/
theorem exponentEnd_congr {m : Nat} {c' : Cursor} (h : c.Agrees m c')
    (hm : reachOf 1 (exponentEnd negative s e down c.digits c) ≤ m) :
    exponentEnd negative s e down c'.digits c' = exponentEnd negative s e down c.digits c' := by
  by_cases hlarge : (absorb 0x80000000 0 c.digits).2 < c.digits.length ∧ s ≠ 0 ∧ (!down) = true
  · obtain ⟨hused, hout⟩ := hlarge
    have hraise : ∀ (ds : Bytes) (d : Cursor),
        (absorb 0x80000000 0 ds).2 < ds.length → exponentEnd negative s e down ds d =
          .error ((d.advance ((absorb 0x80000000 0 ds).2 + 1)).behind .numberOutOfRange) := by
      intro ds d hds
      unfold exponentEnd
      dsimp only
      rw [if_pos hds, if_pos hout]
    rw [hraise _ _ hused] at hm
    have hseen : c.index + ((absorb 0x80000000 0 c.digits).2 + 1) ≤ m := hm
    have htake : c'.digits.take ((absorb 0x80000000 0 c.digits).2 + 1) =
        c.digits.take ((absorb 0x80000000 0 c.digits).2 + 1) := by
      have hboth := congrArg (List.take ((absorb 0x80000000 0 c.digits).2 + 1))
        (h.take_takeWhile Octet.isDigit)
      rwa [List.take_take, List.take_take, Nat.min_eq_left (by omega)] at hboth
    obtain ⟨hsame, hused'⟩ := absorb_of_take hused htake
    rw [hraise _ _ hused, hraise _ _ (hsame ▸ hused'), hsame]
  · -- in all other cases the digits have been seen to their end
    suffices hend : c.index + c.digits.length < m by
      rw [show c'.digits = c.digits from h.takeWhile_eq Octet.isDigit hend]
    refine Nat.le_trans ?_ hm
    unfold exponentEnd
    dsimp only
    split
    · next hused =>
      rw [if_neg fun hout => hlarge ⟨hused, hout⟩]
      exact Nat.le_refl _
    · exact (local_finishNumber negative s _ (c.advance c.digits.length)).reach

theorem local_exponentDigits : Local 1 (exponentDigits negative s e down) := by
  have hend : Local 1 fun c => exponentEnd negative s e down c.digits c := by
    intro c
    refine (local_exponentEnd negative s e down c.digits c).of_step (Nat.le_refl _) (Nat.le_refl _)
      rfl fun m c' hagree hm => ?_
    exact ⟨c', exponentEnd_congr negative s e down hagree hm, hagree⟩
  intro c
  refine .peek (N := fun c => .error (c.behind .endInValue))
    (G := fun b c => if !Octet.isDigit b then .error ((c.advance 1).behind .invalidNumber)
      else exponentEnd negative s e down c.digits c)
    (fun _ => .behind (Nat.le_refl 1)) (fun b r _ => .ite (fun _ => ?_) fun _ => hend c) fun _ => rfl
  exact (LocalAt.behind (Nat.zero_le _)).advance (Nat.zero_le 1) (Nat.le_refl 1)

theorem local_readExponent : Local 1 (readExponent negative s e) := by
  have hdigits := local_exponentDigits negative s e
  intro c
  refine .peek (N := exponentDigits negative s e false)
    (G := fun b c => if b = Octet.plus then exponentDigits negative s e false (c.advance 1)
      else if b = Octet.minus then exponentDigits negative s e true (c.advance 1)
      else exponentDigits negative s e false c)
    (fun _ => hdigits false c) (fun b r _ => ?_) fun c => ?_
  · exact .ite (fun _ => (hdigits false _).advance (Nat.le_refl 1) (Nat.le_add_right 1 1)) fun _ =>
      .ite (fun _ => (hdigits true _).advance (Nat.le_refl 1) (Nat.le_add_right 1 1)) fun _ =>
        hdigits false c
  · rw [readExponent_eq, exponentSign]
    cases c.rest with
    | nil => rfl
    | cons b r =>
      dsimp only
      split
      · rfl
      · split
        · rfl
        · rfl

end Exponent

/-- An exponent where one begins. -/
theorem local_ifExponent {F H : Cursor → Outcome α} (hF : Local 1 F) (hH : Local 1 H) :
    Local 1 fun c => if c.atExponent then F (c.advance 1) else H c := by
  intro c
  refine .peek (N := H) (G := fun b c =>
    if b == Octet.letterE || b == Octet.capitalE then F (c.advance 1) else H c)
    (fun _ => hH c) (fun b r _ => ?_) fun c => ?_
  · exact .ite (fun _ => (hF _).advance (Nat.le_refl 1) (Nat.le_add_right 1 1)) fun _ => hH c
  · rw [Cursor.atExponent]
    cases c.rest <;> rfl

theorem local_readFraction (negative : Bool) (s : Nat) (e : Int) :
    Local 1 (readFraction negative s e) := by
  have hnone : Local 1 fun c => (.error
      (c.ahead (if c.rest.isEmpty then .endInValue else .invalidNumber)) : Outcome Number) :=
    fun c => .peek (N := fun c => .error (c.ahead .endInValue))
      (G := fun _ c => .error (c.ahead .invalidNumber)) (fun _ => .ahead (Nat.le_refl 1))
      (fun _ _ _ => .ahead (Nat.le_refl 1)) fun c => by cases c.rest <;> rfl
  intro c
  refine .takeWhile (p := Octet.isDigit) (G := fun ds c =>
    if ds.isEmpty then
      .error (c.ahead (if c.rest.isEmpty then .endInValue else .invalidNumber))
    else if c.atExponent then
      readExponent negative (absorb 0x10000000000000000 s ds).1
        (e - ((absorb 0x10000000000000000 s ds).2 : Int)) (c.advance 1)
    else
      finishNumber negative (absorb 0x10000000000000000 s ds).1
        (e - ((absorb 0x10000000000000000 s ds).2 : Int)) c) ?_ fun c => ?_
  · exact .ite (fun _ => hnone _) fun _ =>
      local_ifExponent (local_readExponent _ _ _) (local_finishNumber _ _ _) _
  · rw [readFraction, Cursor.digits]
    dsimp only
    by_cases hds : (c.rest.takeWhile Octet.isDigit).isEmpty
    · rw [if_pos hds, if_pos hds, List.isEmpty_iff.1 hds, List.length_nil, Cursor.advance_zero]
    · rw [if_neg hds, if_neg hds]

/-- The end of a numeral of digits alone, which may be too many for a significand. -/
def wholeEnd (negative : Bool) (ds : Bytes) (s used : Nat) (c : Cursor) : Outcome Number :=
  if used < ds.length then finishNumber negative s ((ds.length - used : Nat) : Int) c
  else .ok (.whole negative s, c)

theorem local_wholeEnd (negative : Bool) (ds : Bytes) (s used : Nat) :
    Local 1 (wholeEnd negative ds s used) := fun c =>
  .ite (fun _ => local_finishNumber negative s _ c) fun _ => .pure

theorem local_readScale (negative : Bool) (ds : Bytes) : Local 1 (readScale negative ds) := by
  rcases ha : absorb 0x10000000000000000 0 ds with ⟨s, used⟩
  have hwhole := local_wholeEnd negative ds s used
  intro c
  refine .peek (N := wholeEnd negative ds s used)
    (G := fun b c =>
      if b = Octet.point then readFraction negative s ((ds.length - used : Nat) : Int) (c.advance 1)
      else if c.atExponent then
        readExponent negative s ((ds.length - used : Nat) : Int) (c.advance 1)
      else wholeEnd negative ds s used c)
    (fun _ => hwhole c) (fun b r _ => ?_) fun c => ?_
  · exact .ite
      (fun _ => (local_readFraction negative s _ _).advance (Nat.le_refl 1) (Nat.le_add_right 1 1))
      fun _ => local_ifExponent (local_readExponent negative s _) hwhole c
  · rw [readScale, ha]
    cases c.rest <;> rfl

theorem local_readNumber (negative : Bool) : Local 1 (readNumber negative) := by
  -- a zero stands alone in front of the point
  have hzero : ∀ b, Local 1 fun c => if (c.rest.head?.map Octet.isDigit).getD false then
      .error (c.ahead .invalidNumber) else readScale negative [b] c := fun b c =>
    .peek (N := readScale negative [b])
      (G := fun x c => if Octet.isDigit x then .error (c.ahead .invalidNumber)
        else readScale negative [b] c)
      (fun _ => local_readScale negative [b] c)
      (fun x r _ => .ite (fun _ => .ahead (Nat.le_refl 1)) fun _ => local_readScale negative [b] c)
      fun c => by cases c.rest <;> rfl
  have hdigits : Local 1 fun c => readScale negative c.digits (c.advance c.digits.length) :=
    fun c => .takeWhile (p := Octet.isDigit) (G := readScale negative)
      (local_readScale negative _ _) fun _ => rfl
  intro c
  refine .peek (N := fun c => .error (c.behind .endInValue))
    (G := fun b c => if !Octet.isDigit b then .error ((c.advance 1).behind .invalidNumber)
      else if b = Octet.zero then
        if ((c.advance 1).rest.head?.map Octet.isDigit).getD false then
          .error ((c.advance 1).ahead .invalidNumber)
        else readScale negative [b] (c.advance 1)
      else readScale negative c.digits (c.advance c.digits.length))
    (fun _ => .behind (Nat.le_refl 1)) (fun b r _ => ?_) fun c => ?_
  · exact .ite
      (fun _ => (LocalAt.behind (Nat.zero_le _)).advance (Nat.zero_le 1) (Nat.le_refl 1))
      fun _ => .ite (fun _ => (hzero b _).advance (Nat.le_refl 1) (Nat.le_add_right 1 1))
        fun _ => hdigits c
  · rw [readNumber]
    cases hr : c.rest with
    | nil => rfl
    | cons b r => rw [show (c.advance 1).rest = r by rw [Cursor.advance, hr]; rfl]

end IndexFeed.Json
