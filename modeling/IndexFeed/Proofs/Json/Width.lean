import IndexFeed.Json.Fault
import IndexFeed.Proofs.Json.Escape
import IndexFeed.Proofs.Number.Shortest

/-!
# How long messages get inside strings

`width` counts the octets that characters take inside a string of a compact text, where some of them
stand behind a backslash or are written by number.  The message of a fault is made of fixed words and
of what it quotes from the text: a quoted octet takes up to seven octets, since it can become an
escape whose backslash is escaped again.
-/

set_option autoImplicit false

namespace IndexFeed.Json

/-! ## Characters -/

/-- The octets of one character inside a string. -/
def charWidth (c : Char) : Nat := (Utf8.encodeChars (escapedChar c)).length

/-- The octets of characters inside a string. -/
def width (cs : List Char) : Nat := (Utf8.encodeChars (cs.flatMap escapedChar)).length

variable {c : Char} {cs ds : List Char}

@[simp] theorem width_nil : width [] = 0 := rfl

theorem width_cons (c : Char) (cs : List Char) : width (c :: cs) = charWidth c + width cs := by
  rw [width, List.flatMap_cons, Utf8.encodeChars_append, List.length_append, charWidth, width]

theorem width_append (cs ds : List Char) : width (cs ++ ds) = width cs + width ds := by
  rw [width, List.flatMap_append, Utf8.encodeChars_append, List.length_append, width, width]

theorem width_singleton (c : Char) : width [c] = charWidth c := by
  rw [width_cons, width_nil, Nat.add_zero]

/-- Characters that stand for themselves in one octet. -/
theorem width_eq_length (h : ∀ c ∈ cs, charWidth c = 1) : width cs = cs.length := by
  induction cs with
  | nil => rfl
  | cons c cs ih =>
    rw [List.forall_mem_cons] at h
    rw [width_cons, h.1, ih h.2, List.length_cons, Nat.add_comm]

theorem hexDigit_spec {n : Nat} (h : n < 16) :
    (Octet.hexDigit n).utf8Size = 1 ∧ charWidth (Octet.hexDigit n) = 1 := by
  revert n
  decide +kernel

/-- A character stands for itself, or for at most six others of one octet each. -/
theorem escapedChar_cases (c : Char) :
    escapedChar c = [c] ∨
      (escapedChar c).length ≤ 6 ∧ ∀ d ∈ escapedChar c, d.utf8Size = 1 := by
  have hshort : ∀ e ∈ shortEscapes, e.1.utf8Size = 1 := by decide
  have h := escaping c
  generalize escapedChar c = written at h ⊢
  cases h with
  | @short y hy =>
    refine .inr ⟨Nat.le_add_left 2 4, ?_⟩
    exact List.forall_mem_cons.2 ⟨rfl, List.forall_mem_singleton.2 (hshort (y, c) hy)⟩
  | numbered hcontrol =>
    have hlow := (hexDigit_spec (n := c.toNat % 16) (Nat.mod_lt _ (by decide))).1
    have hhigh := (hexDigit_spec (n := c.toNat / 16) (by omega)).1
    refine .inr ⟨Nat.le_refl 6, ?_⟩
    simp only [List.forall_mem_cons, hhigh, hlow, true_and]
    exact ⟨rfl, rfl, rfl, rfl, List.forall_mem_nil _⟩
  | plain _ _ _ => exact .inl rfl

/-- No character takes more than six octets for each of its own. -/
theorem charWidth_le (c : Char) : charWidth c ≤ 6 * c.utf8Size := by
  have hpos : 0 < c.utf8Size := c.utf8Size_pos
  rw [charWidth]
  rcases escapedChar_cases c with hself | ⟨hlength, hascii⟩
  · rw [hself, Utf8.encodeChars_cons, List.length_append, String.length_utf8EncodeChar,
      Utf8.encodeChars, List.flatMap_nil, List.length_nil]
    omega
  · rw [Utf8.length_encodeChars hascii]
    omega

theorem width_le (cs : List Char) : width cs ≤ 6 * (Utf8.encodeChars cs).length := by
  induction cs with
  | nil => exact Nat.zero_le _
  | cons c cs ih =>
    have hc := charWidth_le c
    rw [width_cons, Utf8.encodeChars_cons, List.length_append, String.length_utf8EncodeChar]
    omega

/-! ## Quoted texts -/

theorem hexChars_spec {n k : Nat} (hk : 0 < k) (h : n < 16 ^ k) :
    width (Quoted.hexChars n) ≤ k := by
  induction k generalizing n with
  | zero => cases hk
  | succ k ih =>
    unfold Quoted.hexChars
    split
    · next hn =>
      rw [width_singleton, (hexDigit_spec hn).2]
      exact Nat.succ_le_succ (Nat.zero_le k)
    · next hn =>
      have hpos : 0 < k := by
        rcases Nat.eq_zero_or_pos k with rfl | hpos
        · exact absurd h hn
        · exact hpos
      have hdiv : n / 16 < 16 ^ k := Nat.div_lt_of_lt_mul (by rwa [Nat.pow_succ'] at h)
      rw [width_append, width_singleton, (hexDigit_spec (Nat.mod_lt n (by decide))).2]
      exact Nat.succ_le_succ (ih hpos hdiv)

theorem width_numbered_le (c : Char) : width (Quoted.numbered c) ≤ 7 * c.utf8Size := by
  have hopen : width ['\\', 'u', Char.ofNat 0x7b] = 4 := by decide +kernel
  have hclose : width [Char.ofNat 0x7d] = 1 := by decide +kernel
  have hlt : c.toNat < 16 ^ 6 := by
    rcases c.valid with h | ⟨-, h⟩
    · exact Nat.lt_trans h (by decide)
    · exact Nat.lt_trans h (by decide)
  rw [Quoted.numbered, width_append, width_append, hopen, hclose, Utf8.utf8Size_eq]
  split
  · next h =>
    have hhex := hexChars_spec (k := 2) (by decide) (Nat.lt_trans h (by decide))
    omega
  · split
    · next h =>
      have hhex := hexChars_spec (k := 3) (by decide) (Nat.lt_trans h (by decide))
      omega
    · split
      · next h =>
        have hhex := hexChars_spec (k := 4) (by decide) h
        omega
      · have hhex := hexChars_spec (k := 6) (by decide) hlt
        omega

theorem width_charForm_le (c : Char) : width (Quoted.charForm c) ≤ 7 * c.utf8Size := by
  have hpos : 0 < c.utf8Size := c.utf8Size_pos
  have hself := charWidth_le c
  have hshort : ∀ d, charWidth d ≤ 2 → width ['\\', d] ≤ 7 * c.utf8Size := fun d hd => by
    have hbackslash : charWidth '\\' = 2 := by decide +kernel
    rw [width_cons, width_singleton, hbackslash]
    omega
  unfold Quoted.charForm
  repeat' split
  · exact hshort '0' (by decide +kernel)
  · exact hshort 't' (by decide +kernel)
  · exact hshort 'r' (by decide +kernel)
  · exact hshort 'n' (by decide +kernel)
  · next hc =>
    rw [Bool.or_eq_true, beq_iff_eq, beq_iff_eq] at hc
    rcases hc with rfl | rfl
    · exact hshort '\\' (by decide +kernel)
    · exact hshort '\"' (by decide +kernel)
  · rw [width_singleton]
    omega
  · exact width_numbered_le c

/-- A quoted text takes at most seven octets for each one quoted, and four for its quotes. -/
theorem width_quoted_le (s : String) :
    width (Quoted.text s).toList ≤ 7 * (Utf8.encode s).length + 4 := by
  have hquote : width ['\"'] = 2 := by decide +kernel
  have hbody : ∀ cs : List Char,
      width (cs.flatMap Quoted.charForm) ≤ 7 * (Utf8.encodeChars cs).length := fun cs => by
    induction cs with
    | nil => exact Nat.zero_le _
    | cons c cs ih =>
      have hc := width_charForm_le c
      rw [List.flatMap_cons, width_append, Utf8.encodeChars_cons, List.length_append,
        String.length_utf8EncodeChar]
      omega
  rw [Quoted.text, String.toList_ofList, width_append, width_append, hquote, Utf8.encode]
  have := hbody s.toList
  omega

/-! ## Numbers -/

theorem charWidth_of_isNumeric (h : Binary64.isNumeric c = true) : charWidth c = 1 := by
  have hascii : ∀ n, n < 0x80 → Binary64.isNumeric (Char.ofNat n) = true →
      charWidth (Char.ofNat n) = 1 := by decide +kernel
  have hlt : c.toNat < 0x80 := by
    simp only [Binary64.isNumeric, Bool.or_eq_true, beq_iff_eq] at h
    rcases h with (((h | rfl) | rfl) | rfl) | rfl
    · rw [Char.isDigit, Bool.and_eq_true, decide_eq_true_iff, decide_eq_true_iff] at h
      exact Nat.lt_of_le_of_lt (UInt32.le_iff_toNat_le.1 h.2) (by decide)
    · decide
    · decide
    · decide
    · decide
  have hc := hascii c.toNat hlt
  rw [Char.ofNat_toNat] at hc
  exact hc h

/-- The octets of a text inside a string. -/
def textWidth (s : String) : Nat := width s.toList

theorem textWidth_append (s t : String) : textWidth (s ++ t) = textWidth s + textWidth t := by
  rw [textWidth, String.toList_append, width_append, textWidth, textWidth]

theorem textWidth_decimal_le {n k : Nat} (hk : 0 < k) (h : n < 10 ^ k) :
    textWidth (Decimal.text n) ≤ k := by
  rw [textWidth, Decimal.text, String.toList_ofList,
    width_eq_length fun c hc => charWidth_of_isNumeric (Binary64.isNumeric_of_mem_digits hc)]
  exact Decimal.length_chars_le hk h

theorem textWidth_signed_le {i : Int} (h : i.natAbs < 10 ^ 20) :
    textWidth (Decimal.signed i) ≤ 21 := by
  have hdigits := textWidth_decimal_le (by decide) h
  rw [Decimal.signed]
  split
  · have hsign : textWidth "-" = 1 := by decide +kernel
    rw [textWidth_append]
    omega
  · omega

theorem textWidth_float_le (x : Binary64) : textWidth (String.ofList x.chars) ≤ 25 := by
  rw [textWidth, String.toList_ofList,
    width_eq_length fun c hc => charWidth_of_isNumeric (x.isNumeric_of_mem_chars c hc)]
  exact x.length_chars_le

/-! ## Messages -/

/-- What a value of at most `n` octets can be found to be. -/
def Found.Within (n : Nat) : Found → Prop
  | .integer i => i.natAbs < 10 ^ 20
  | .string s => (Utf8.encode s).length ≤ n
  | _ => True

theorem Found.within_ofNumber (n : Nat) (x : Number) : (Found.ofNumber x).Within n := by
  cases x with
  | integer i hleast hmost =>
    change i.natAbs < 10 ^ 20
    omega
  | float => trivial

theorem Found.Within.mono {m n : Nat} {found : Found} (h : found.Within m) (hmn : m ≤ n) :
    found.Within n := by
  cases found with
  | string s => exact Nat.le_trans h hmn
  | integer i => exact h
  | _ => trivial

theorem Found.textWidth_le {n : Nat} {found : Found} (h : found.Within n) :
    textWidth found.text ≤ 7 * n + 42 := by
  cases found with
  | null =>
    have hnull : textWidth Found.null.text = 4 := by decide +kernel
    omega
  | bool b =>
    have hbool : ∀ b, textWidth (Found.bool b).text ≤ 15 := by decide +kernel
    have := hbool b
    omega
  | sequence =>
    have hsequence : textWidth Found.sequence.text = 8 := by decide +kernel
    omega
  | map =>
    have hmap : textWidth Found.map.text = 3 := by decide +kernel
    omega
  | integer i =>
    have hdigits := textWidth_signed_le h
    have hopen : textWidth "integer `" = 9 := by decide +kernel
    have hclose : textWidth "`" = 1 := by decide +kernel
    change textWidth ("integer `" ++ Decimal.signed i ++ "`") ≤ _
    rw [textWidth_append, textWidth_append]
    omega
  | float x =>
    have hdigits := textWidth_float_le x
    have hopen : textWidth "floating point `" = 16 := by decide +kernel
    have hclose : textWidth "`" = 1 := by decide +kernel
    change textWidth ("floating point `" ++ String.ofList x.chars ++ "`") ≤ _
    rw [textWidth_append, textWidth_append]
    omega
  | string s =>
    have hquoted := width_quoted_le s
    have hopen : textWidth "string " = 7 := by decide +kernel
    have hlength : (Utf8.encode s).length ≤ n := h
    change textWidth ("string " ++ Quoted.text s) ≤ _
    rw [textWidth_append]
    rw [← textWidth] at hquoted
    omega

/-- A text of the program, which is not long. -/
def Brief (s : String) : Prop := textWidth s ≤ 52

instance (s : String) : Decidable (Brief s) := inferInstanceAs (Decidable (_ ≤ _))

/-- What a text of at most `n` octets can have wrong, where all the names in question are brief. -/
def Misfit.Within (n : Nat) : Misfit → Prop
  | .kind found expected | .range found expected => found.Within n ∧ Brief expected
  | .length count expected => count ≤ n ∧ Brief expected
  | .missingField name | .duplicateField name => Brief name
  | .variant name known => (Utf8.encode name).length ≤ n ∧ Brief (oneOf known)
  | .negativeSpan | .hugeSpan => True

theorem Misfit.textWidth_le {n : Nat} {m : Misfit} (hn : n < 10 ^ 8) (h : m.Within n) :
    textWidth m.text ≤ 7 * n + 120 := by
  have hexpected : textWidth ", expected " = 11 := by decide +kernel
  have hclose : textWidth "`" = 1 := by decide +kernel
  cases m with
  | kind found expected =>
    have hopen : textWidth "invalid type: " = 14 := by decide +kernel
    have hfound := Found.textWidth_le h.1
    have hbrief : textWidth expected ≤ 52 := h.2
    change textWidth ("invalid type: " ++ found.text ++ ", expected " ++ expected) ≤ _
    rw [textWidth_append, textWidth_append, textWidth_append]
    omega
  | range found expected =>
    have hopen : textWidth "invalid value: " = 15 := by decide +kernel
    have hfound := Found.textWidth_le h.1
    have hbrief : textWidth expected ≤ 52 := h.2
    change textWidth ("invalid value: " ++ found.text ++ ", expected " ++ expected) ≤ _
    rw [textWidth_append, textWidth_append, textWidth_append]
    omega
  | length count expected =>
    have hopen : textWidth "invalid length " = 15 := by decide +kernel
    have hcount := textWidth_decimal_le (k := 8) (by decide) (Nat.lt_of_le_of_lt h.1 hn)
    have hbrief : textWidth expected ≤ 52 := h.2
    change textWidth ("invalid length " ++ Decimal.text count ++ ", expected " ++ expected) ≤ _
    rw [textWidth_append, textWidth_append, textWidth_append]
    omega
  | missingField name =>
    have hopen : textWidth "missing field `" = 15 := by decide +kernel
    have hbrief : textWidth name ≤ 52 := h
    change textWidth ("missing field `" ++ name ++ "`") ≤ _
    rw [textWidth_append, textWidth_append]
    omega
  | duplicateField name =>
    have hopen : textWidth "duplicate field `" = 17 := by decide +kernel
    have hbrief : textWidth name ≤ 52 := h
    change textWidth ("duplicate field `" ++ name ++ "`") ≤ _
    rw [textWidth_append, textWidth_append]
    omega
  | variant name known =>
    have hopen : textWidth "unknown variant `" = 17 := by decide +kernel
    have hcomma : textWidth "`, " = 3 := by decide +kernel
    have hname : textWidth name ≤ 6 * (Utf8.encode name).length := width_le name.toList
    have hlength : (Utf8.encode name).length ≤ n := h.1
    have hbrief : textWidth (oneOf known) ≤ 52 := h.2
    change textWidth ("unknown variant `" ++ name ++ "`, " ++ oneOf known) ≤ _
    rw [textWidth_append, textWidth_append, textWidth_append]
    omega
  | negativeSpan =>
    have hspan : textWidth Misfit.negativeSpan.text ≤ 120 := by decide +kernel
    omega
  | hugeSpan =>
    have hspan : textWidth Misfit.hugeSpan.text ≤ 120 := by decide +kernel
    omega

/-- The message of a cause that quotes only what the text holds. -/
theorem Cause.textWidth_le {n : Nat} {cause : Cause} (hn : n < 10 ^ 8)
    (h : ∀ m, cause = .misfit m → m.Within n) : textWidth cause.text ≤ 7 * n + 120 := by
  cases cause with
  | misfit m => exact Misfit.textWidth_le hn (h m rfl)
  | _ =>
    refine Nat.le_trans (m := 120) ?_ (Nat.le_add_left 120 (7 * n))
    decide +kernel

/-- A position in a text: there are no more lines and columns than octets. -/
theorem Site.position_le (site : Site) (supply : Supply) (text : Bytes) :
    (site.position supply text).line ≤ text.length + 1 ∧
      (site.position supply text).column ≤ text.length := by
  have hlines : ((text.take (site.count supply)).count Octet.lineFeed) ≤ text.length :=
    Nat.le_trans List.count_le_length (List.length_take_le' _ _)
  have hcolumns : ((text.take (site.count supply)).reverse.takeWhile (· != Octet.lineFeed)).length ≤
      text.length := by
    refine Nat.le_trans (List.takeWhile_sublist _).length_le ?_
    rw [List.length_reverse]
    exact List.length_take_le' _ _
  unfold Site.position Position.behind
  dsimp only
  split
  · dsimp only
    exact ⟨by omega, by omega⟩
  · dsimp only
    exact ⟨by omega, by omega⟩

/-- **How long the message of a fault gets.** -/
theorem Fault.textWidth_report_le (f : Fault) (supply : Supply) (text : Bytes)
    (htext : text.length + 1 < 10 ^ 8) (h : ∀ m, f.cause = .misfit m → m.Within text.length) :
    textWidth (f.report supply text).message ≤ 7 * text.length + 153 := by
  have hcause := Cause.textWidth_le (Nat.lt_of_succ_lt htext) h
  have hline : textWidth " at line " = 9 := by decide +kernel
  have hcolumn : textWidth " column " = 8 := by decide +kernel
  unfold Error.message Fault.report
  dsimp only
  cases f.site with
  | none => exact Nat.le_trans hcause (Nat.add_le_add_left (by decide) _)
  | some site =>
    obtain ⟨hl, hc⟩ := site.position_le supply text
    have := textWidth_decimal_le (k := 8) (by decide) (Nat.lt_of_le_of_lt hl htext)
    have := textWidth_decimal_le (k := 8) (by decide)
      (Nat.lt_of_le_of_lt hc (Nat.lt_of_succ_lt htext))
    simp only [Option.map_some, textWidth_append]
    omega

end IndexFeed.Json
