import IndexFeed.Proofs.Json.Completeness
import IndexFeed.Proofs.Json.Escape
import IndexFeed.Proofs.Text.Utf8

/-!
# The compact text of a value

What `Json.chars` writes of a value is a text of that value, as long as the texts of its numbers
are: strings with their escapes, integers, and the brackets, commas and colons around them.
-/

set_option autoImplicit false

namespace IndexFeed.Json

open Utf8 (encodeChars encodeChars_cons encodeChars_append)

variable {n : Nat} {x : Char} {p q bs cs : Bytes}

/-! ## Strings -/

theorem Pieces.single (h : Piece p bs) : Pieces p bs := by
  have hcons := Pieces.cons h .nil
  rwa [List.append_nil, List.append_nil] at hcons

theorem Pieces.append (h : Pieces p bs) (k : Pieces q cs) : Pieces (p ++ q) (bs ++ cs) := by
  induction h with
  | nil => exact k
  | cons hpiece _ ih =>
    rw [List.append_assoc, List.append_assoc]
    exact .cons hpiece ih

/-- Octets that need no escape. -/
theorem pieces_plain (h : ∀ b ∈ p, ¬b < 0x20 ∧ b ≠ Octet.quote ∧ b ≠ Octet.backslash) :
    Pieces p p := by
  induction p with
  | nil => exact .nil
  | cons b p ih =>
    rw [List.forall_mem_cons] at h
    obtain ⟨⟨hcontrol, hquote, hbackslash⟩, hp⟩ := h
    exact .cons (.plain hcontrol hquote hbackslash) (ih hp)

/-- A character that is written as it is. -/
theorem pieces_utf8EncodeChar (hcontrol : ¬x.toNat < 0x20) (hquote : x ≠ '\"')
    (hbackslash : x ≠ '\\') : Pieces (String.utf8EncodeChar x) (String.utf8EncodeChar x) := by
  have hne : ∀ y : Char, x ≠ y → x.toNat ≠ y.toNat := fun y hy hn =>
    hy (Char.ext (UInt32.toNat_inj.1 hn))
  have hquote := hne _ hquote
  have hbackslash := hne _ hbackslash
  refine pieces_plain fun b hb => ?_
  have hb := Utf8.toNat_of_mem_utf8EncodeChar hb
  refine ⟨?_, ?_, ?_⟩
  · rw [UInt8.lt_iff_toNat_lt]
    have h20 : (0x20 : UInt8).toNat = 0x20 := rfl
    omega
  · rintro rfl
    have h22 : Octet.quote.toNat = '\"'.toNat := rfl
    have h80 : Octet.quote.toNat < 0x80 := by decide
    omega
  · rintro rfl
    have h5c : Octet.backslash.toNat = '\\'.toNat := rfl
    have h80 : Octet.backslash.toNat < 0x80 := by decide
    omega

/-- A character that a letter behind a backslash stands for. -/
theorem pieces_short : ∀ e ∈ shortEscapes,
    Pieces (encodeChars ['\\', e.1]) (String.utf8EncodeChar e.2) := by
  have hsimple : ∀ e ∈ shortEscapes,
      encodeChars ['\\', e.1] = [Octet.backslash, UInt8.ofNat e.1.toNat] ∧
        String.utf8EncodeChar e.2 = [UInt8.ofNat e.2.toNat] ∧
        simpleEscape? (UInt8.ofNat e.1.toNat) = some (UInt8.ofNat e.2.toNat) := by decide +kernel
  intro e he
  obtain ⟨hletters, hoctets, hescape⟩ := hsimple e he
  rw [hletters, hoctets]
  exact .single (.simple hescape)

/-- A control character is written by its number. -/
theorem pieces_control (h : n < 0x20) :
    Pieces (encodeChars ['\\', 'u', '0', '0', Octet.hexDigit (n / 16), Octet.hexDigit (n % 16)])
      (String.utf8EncodeChar (Char.ofNat n)) := by
  have hall : ∀ n < 0x20, ∃ y z,
      encodeChars ['\\', 'u', '0', '0', Octet.hexDigit (n / 16), Octet.hexDigit (n % 16)] =
        [Octet.backslash, Octet.letterU, Octet.zero, Octet.zero, y, z] ∧
      Octet.hexQuad? Octet.zero Octet.zero y z = some n := by
    intro n hn
    refine ⟨UInt8.ofNat (Octet.hexDigit (n / 16)).toNat, UInt8.ofNat (Octet.hexDigit (n % 16)).toNat, ?_⟩
    revert n
    decide +kernel
  obtain ⟨y, z, hoctets, hquad⟩ := hall n h
  have htrailing : isTrailing n = false := by
    simp only [isTrailing, Bool.and_eq_false_iff, decide_eq_false_iff_not]
    omega
  have hleading : isLeading n = false := by
    simp only [isLeading, Bool.and_eq_false_iff, decide_eq_false_iff_not]
    omega
  rw [hoctets]
  exact .single (.numbered hquad htrailing hleading)

/-- Whatever is written for a character stands for its octets. -/
theorem pieces_escapedChar (x : Char) :
    Pieces (encodeChars (escapedChar x)) (String.utf8EncodeChar x) := by
  have h := escaping x
  generalize escapedChar x = written at h ⊢
  cases h with
  | @short y hy => exact pieces_short (y, x) hy
  | numbered hcontrol =>
    have hpieces := pieces_control hcontrol
    rwa [Char.ofNat_toNat] at hpieces
  | plain hquote hbackslash hcontrol =>
    rw [encodeChars_cons, show encodeChars [] = [] from rfl, List.append_nil]
    exact pieces_utf8EncodeChar hcontrol hquote hbackslash

theorem pieces_escaped (cs : List Char) :
    Pieces (encodeChars (cs.flatMap escapedChar)) (encodeChars cs) := by
  induction cs with
  | nil => exact .nil
  | cons x cs ih =>
    rw [List.flatMap_cons, encodeChars_append, encodeChars_cons]
    exact (pieces_escapedChar x).append ih

/-- **Every string is written so that it can be read back.** -/
theorem stringWritten_stringChars (s : String) : StringWritten s (encodeChars (stringChars s)) := by
  refine ⟨encodeChars (s.toList.flatMap escapedChar), encodeChars s.toList, ?_,
    pieces_escaped s.toList, ?_⟩
  · rw [stringChars, encodeChars_cons, encodeChars_append]
    rfl
  · rw [Utf8.decode_encodeChars, String.ofList_toList]

/-! ## Digits -/

/-- The number that digits write behind a number. -/
def amount (s : Nat) (p : Bytes) : Nat := p.foldl (fun s b => s * 10 + Octet.digitValue b) s

theorem amount_append (s : Nat) (p q : Bytes) : amount s (p ++ q) = amount (amount s p) q :=
  List.foldl_append

theorem le_amount (s : Nat) (p : Bytes) : s ≤ amount s p := by
  induction p generalizing s with
  | nil => exact Nat.le_refl s
  | cons b p ih =>
    refine Nat.le_trans ?_ (ih (s * 10 + Octet.digitValue b))
    omega

/-- Digits that stay below the limit are all absorbed. -/
theorem absorb_of_amount_lt (limit : Nat) {s : Nat} (h : amount s p < limit) :
    absorb limit s p = (amount s p, p.length) := by
  induction p generalizing s with
  | nil => rfl
  | cons b p ih =>
    have hb : s * 10 + Octet.digitValue b < limit := Nat.lt_of_le_of_lt (le_amount _ p) h
    rw [absorb]
    dsimp only
    rw [if_pos hb, ih h]
    rfl

/-- A digit as an octet. -/
theorem encodeChars_digit (h : n < 10) :
    ∃ b, encodeChars [Decimal.digit n] = [b] ∧ Octet.isDigit b = true ∧ Octet.digitValue b = n ∧
      (b = Octet.zero → n = 0) := by
  refine ⟨UInt8.ofNat (0x30 + n), ?_⟩
  revert n
  decide +kernel

/-- A number in decimal: digits that write it, without a zero in front. -/
theorem encodeChars_chars (n : Nat) :
    Digits (encodeChars (Decimal.chars n)) ∧ amount 0 (encodeChars (Decimal.chars n)) = n ∧
      ((encodeChars (Decimal.chars n)).head? = some Octet.zero → n = 0) := by
  fun_induction Decimal.chars n with
  | case1 n hn =>
    obtain ⟨b, hb, hdigit, hvalue, hzero⟩ := encodeChars_digit hn
    rw [hb]
    refine ⟨⟨List.cons_ne_nil b [], List.forall_mem_singleton.2 hdigit⟩, ?_, ?_⟩
    · simp only [amount, List.foldl_cons, List.foldl_nil, hvalue, Nat.zero_mul, Nat.zero_add]
    · rw [List.head?_cons, Option.some.injEq]
      exact hzero
  | case2 n hn ih =>
    obtain ⟨⟨hne, hall⟩, hamount, hhead⟩ := ih
    obtain ⟨b, hb, hdigit, hvalue, -⟩ := encodeChars_digit (Nat.mod_lt n (by decide : 10 > 0))
    rw [encodeChars_append, hb]
    refine ⟨⟨List.append_ne_nil_of_left_ne_nil hne [b], ?_⟩, ?_, ?_⟩
    · rw [List.forall_mem_append]
      exact ⟨hall, List.forall_mem_singleton.2 hdigit⟩
    · rw [amount_append, hamount]
      simp only [amount, List.foldl_cons, List.foldl_nil, hvalue]
      omega
    · obtain ⟨b', r, hr⟩ := List.exists_cons_of_ne_nil hne
      rw [hr, List.head?_cons] at hhead
      rw [hr, List.cons_append, List.head?_cons]
      intro h
      have := hhead h
      omega

theorem encodeChars_chars_zero : encodeChars (Decimal.chars 0) = [Octet.zero] := by decide +kernel

/-- Digits without a zero in front, or that zero alone. -/
theorem lead_chars (n : Nat) (h : (encodeChars (Decimal.chars n)).head? = some Octet.zero) :
    encodeChars (Decimal.chars n) = [Octet.zero] := by
  rw [(encodeChars_chars n).2.2 h, encodeChars_chars_zero]

/-! ## Integers -/

/-- Digits alone are a numeral. -/
theorem wellFormed_chars (n : Nat) :
    Numeral.WellFormed ⟨encodeChars (Decimal.chars n), none, none⟩ where
  whole := (encodeChars_chars n).1
  lead := lead_chars n
  fraction := nofun
  exponent := nofun

theorem number?_chars (negative : Bool) (h : n < 0x10000000000000000) :
    Numeral.number? negative ⟨encodeChars (Decimal.chars n), none, none⟩ =
      some (.whole negative n) := by
  have hamount := (encodeChars_chars n).2.1
  have habsorb := absorb_of_amount_lt (s := 0)
    (p := encodeChars (Decimal.chars n)) 0x10000000000000000 (by rw [hamount]; exact h)
  rw [hamount] at habsorb
  simp only [Numeral.number?, habsorb, Nat.lt_irrefl, if_false]

theorem numberWritten_integer (i : Int) (hleast : -0x8000000000000000 ≤ i)
    (hmost : i < 0x10000000000000000) :
    NumberWritten (.integer i hleast hmost)
      (encodeChars (Number.integer i hleast hmost).chars) := by
  rw [Number.chars, integerChars]
  split
  · next hneg =>
    have hwhole : Number.whole true i.natAbs = .integer i hleast hmost := by
      rw [Number.whole, if_pos rfl, dif_pos (by omega)]
      congr 1
      omega
    have hnumber := number?_chars true (n := i.natAbs) (by omega)
    rw [hwhole] at hnumber
    have hwritten := NumberWritten.negative (wellFormed_chars i.natAbs) hnumber
    rwa [Numeral.text, Numeral.scaleText, Option.elim_none, Option.elim_none, List.append_nil,
      List.append_nil] at hwritten
  · next hpos =>
    have hwhole : Number.whole false i.natAbs = .integer i hleast hmost := by
      rw [Number.whole, if_neg (by decide), dif_pos (by omega)]
      congr 1
      omega
    have hnumber := number?_chars false (n := i.natAbs) (by omega)
    rw [hwhole] at hnumber
    have hwritten := NumberWritten.plain (wellFormed_chars i.natAbs) hnumber
    rwa [Numeral.text, Numeral.scaleText, Option.elim_none, Option.elim_none, List.append_nil,
      List.append_nil] at hwritten

/-! ## Values -/

mutual

/-- The brackets and braces that a value has open at once. -/
def depth : Json → Nat
  | .null | .bool _ | .number _ | .string _ => 0
  | .array items => itemDepth items + 1
  | .object members => memberDepth members + 1

/-- The largest depth of items. -/
def itemDepth : List Json → Nat
  | [] => 0
  | j :: r => max (depth j) (itemDepth r)

/-- The largest depth of members. -/
def memberDepth : List (String × Json) → Nat
  | [] => 0
  | (_, j) :: r => max (depth j) (memberDepth r)

end

mutual

/-- The numbers in a value. -/
def numbers : Json → List Number
  | .null | .bool _ | .string _ => []
  | .number x => [x]
  | .array items => itemNumbers items
  | .object members => memberNumbers members

/-- The numbers in items. -/
def itemNumbers : List Json → List Number
  | [] => []
  | j :: r => numbers j ++ itemNumbers r

/-- The numbers in members. -/
def memberNumbers : List (String × Json) → List Number
  | [] => []
  | (_, j) :: r => numbers j ++ memberNumbers r

end

mutual

/-- The value with a function applied to all its numbers. -/
def mapNumbers (f : Number → Number) : Json → Json
  | .null => .null
  | .bool b => .bool b
  | .number x => .number (f x)
  | .string s => .string s
  | .array items => .array (mapItems f items)
  | .object members => .object (mapMembers f members)

/-- The items with a function applied to all their numbers. -/
def mapItems (f : Number → Number) : List Json → List Json
  | [] => []
  | j :: r => mapNumbers f j :: mapItems f r

/-- The members with a function applied to all their numbers. -/
def mapMembers (f : Number → Number) : List (String × Json) → List (String × Json)
  | [] => []
  | (k, j) :: r => (k, mapNumbers f j) :: mapMembers f r

end

variable {f : Number → Number} {j : Json} {js : List Json} {ms : Object} {k : String}

mutual

/-- A function that changes no number of a value changes nothing. -/
theorem mapNumbers_eq_self (j : Json) (h : ∀ x ∈ j.numbers, f x = x) : j.mapNumbers f = j := by
  cases j with
  | null | bool | string => rfl
  | number x => rw [mapNumbers, h x (List.mem_singleton_self x)]
  | array items => rw [mapNumbers, mapItems_eq_self items h]
  | object members => rw [mapNumbers, mapMembers_eq_self members h]

theorem mapItems_eq_self (js : List Json) (h : ∀ x ∈ itemNumbers js, f x = x) :
    mapItems f js = js := by
  cases js with
  | nil => rfl
  | cons j js =>
    rw [itemNumbers, List.forall_mem_append] at h
    rw [mapItems, mapNumbers_eq_self j h.1, mapItems_eq_self js h.2]

theorem mapMembers_eq_self (ms : Object) (h : ∀ x ∈ memberNumbers ms, f x = x) :
    mapMembers f ms = ms := by
  cases ms with
  | nil => rfl
  | cons m ms =>
    rw [memberNumbers, List.forall_mem_append] at h
    rw [mapMembers, mapNumbers_eq_self m.2 h.1, mapMembers_eq_self ms h.2]

end

theorem memberNumbers_append (ms ns : Object) :
    memberNumbers (ms ++ ns) = memberNumbers ms ++ memberNumbers ns := by
  induction ms with
  | nil => rfl
  | cons m ms ih => rw [List.cons_append, memberNumbers, ih, memberNumbers, List.append_assoc]

theorem memberDepth_append (ms ns : Object) :
    memberDepth (ms ++ ns) = max (memberDepth ms) (memberDepth ns) := by
  induction ms with
  | nil => exact (Nat.zero_max _).symm
  | cons m ms ih => rw [List.cons_append, memberDepth, ih, memberDepth, Nat.max_assoc]

/-! ### Texts without blanks -/

theorem Written.lone (h : Written n (.value j) p) : Written n (.items [j]) p := by
  have hitem := Written.lastItem (a := []) (b := []) nofun h nofun
  rwa [List.nil_append, List.append_nil] at hitem

theorem Written.cons_item (h : Written n (.value j) p) (hq : Written n (.items js) q) :
    Written n (.items (j :: js)) (p ++ Octet.comma :: q) :=
  Written.item (a := []) (b := []) nofun h nofun hq

theorem Written.lone_member (hk : StringWritten k q) (h : Written n (.value j) p) :
    Written n (.members [(k, j)]) (q ++ Octet.colon :: p) := by
  have hmember := Written.lastMember (a := []) (b := []) (c := []) (e := []) nofun hk nofun nofun h
    nofun
  rwa [List.nil_append, List.nil_append, List.nil_append, List.append_nil] at hmember

theorem Written.cons_member {t : Bytes} (hk : StringWritten k q) (h : Written n (.value j) p)
    (ht : Written n (.members ms) t) :
    Written n (.members ((k, j) :: ms)) (q ++ Octet.colon :: (p ++ Octet.comma :: t)) :=
  Written.member (a := []) (b := []) (c := []) (e := []) nofun hk nofun nofun h nofun ht

mutual

/-- **The compact text of a value is a text of it**, if the texts of its numbers are texts of the
numbers that a function gives: of the value with these numbers. -/
theorem written_chars (j : Json) (h : ∀ x ∈ j.numbers, NumberWritten (f x) (encodeChars x.chars)) :
    Written j.depth (.value (j.mapNumbers f)) (encodeChars j.chars) := by
  match j with
  | .null => exact .null
  | .bool true => exact .truth
  | .bool false => exact .falsity
  | .number x => exact .number (h x (List.mem_singleton_self x))
  | .string s => exact .string (stringWritten_stringChars s)
  | .array items =>
    have hitems := written_itemChars items h
    rw [chars, encodeChars_cons, encodeChars_append]
    by_cases hne : items = []
    · subst hne
      exact .emptyArray (a := []) nofun
    · exact .array (hitems hne)
  | .object members =>
    have hmembers := written_memberChars members h
    rw [chars, encodeChars_cons, encodeChars_append]
    by_cases hne : members = []
    · subst hne
      exact .emptyObject (a := []) nofun
    · exact .object (hmembers hne)

theorem written_itemChars (js : List Json)
    (h : ∀ x ∈ itemNumbers js, NumberWritten (f x) (encodeChars x.chars)) (hne : js ≠ []) :
    Written (itemDepth js) (.items (mapItems f js)) (encodeChars (itemChars js)) := by
  match js with
  | [] => exact absurd rfl hne
  | [j] =>
    rw [itemNumbers, List.forall_mem_append] at h
    exact ((written_chars j h.1).mono (Nat.le_max_left _ _)).lone
  | j :: i :: js =>
    rw [itemNumbers, List.forall_mem_append] at h
    have hj := (written_chars j h.1).mono (Nat.le_max_left j.depth (itemDepth (i :: js)))
    have hjs := (written_itemChars (i :: js) h.2 (List.cons_ne_nil i js)).mono
      (Nat.le_max_right j.depth (itemDepth (i :: js)))
    rw [itemChars, encodeChars_append, encodeChars_cons]
    exact hj.cons_item hjs

theorem written_memberChars (ms : Object)
    (h : ∀ x ∈ memberNumbers ms, NumberWritten (f x) (encodeChars x.chars)) (hne : ms ≠ []) :
    Written (memberDepth ms) (.members (mapMembers f ms)) (encodeChars (memberChars ms)) := by
  match ms with
  | [] => exact absurd rfl hne
  | [(k, j)] =>
    rw [memberNumbers, List.forall_mem_append] at h
    rw [memberChars, encodeChars_append, encodeChars_cons]
    exact .lone_member (stringWritten_stringChars k)
      ((written_chars j h.1).mono (Nat.le_max_left _ _))
  | (k, j) :: m :: ms =>
    rw [memberNumbers, List.forall_mem_append] at h
    have hj := (written_chars j h.1).mono (Nat.le_max_left j.depth (memberDepth (m :: ms)))
    have hms := (written_memberChars (m :: ms) h.2 (List.cons_ne_nil m ms)).mono
      (Nat.le_max_right j.depth (memberDepth (m :: ms)))
    rw [memberChars, encodeChars_append, encodeChars_cons, encodeChars_append, encodeChars_cons]
    exact .cons_member (stringWritten_stringChars k) hj hms

end

end IndexFeed.Json
