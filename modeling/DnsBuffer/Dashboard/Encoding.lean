import DnsBuffer.Dashboard.Queries
import DnsBuffer.Foundation.Percent

/-!
# The encoding of query strings

`validate_query_encoding` is to refuse a query string that is not well-formed percent-encoding of
UTF-8. It reads the two bytes behind a percent sign by `u8::from_str_radix`, which takes numbers and
not pairs of digits: a plus sign and one digit is a number too. So `%+a` passes, as if it were
`%0a`.

What is accepted is what is well-formed once every such sign is written as a zero
(`decodeQuery_eq_ok_iff`), and the validation is right about the other query strings
(`validates_encoding_iff`).
-/

namespace DnsBuffer

open Percent

/-! ### The validation -/

/-- `str::as_bytes`. -/
def Text.asBytes (s : Text) : List UInt8 := s.flatMap String.utf8EncodeChar

/-- `std::str::from_utf8` succeeds. -/
def fromUtf8 (bytes : List UInt8) : Bool := bytes.toByteArray.validateUTF8

/-- The plus sign. -/
def plusSign : UInt8 := 43

/-- The loop of `from_str_radix`: digits to base 16, as long as the value is a `u8`. -/
def digitsToU8 (digits : List UInt8) : Option ℕ :=
  digits.foldlM (fun value b ↦ (hexValue? b).bind fun digit ↦
    if value * 16 + digit < 256 then some (value * 16 + digit) else none) 0

/-- `u8::from_str_radix(_, 16)`: not empty, not a sign alone, and possibly a plus sign before the
digits. -/
def fromStrRadix16 (src : List UInt8) : Option UInt8 :=
  (match src with
  | [] => none
  | [b] => if b = plusSign then none else digitsToU8 [b]
  | b :: rest => if b = plusSign then digitsToU8 rest else digitsToU8 (b :: rest)).map UInt8.ofNat

/-- The text every malformed query string is refused with. -/
def invalidQuery : ApiError := .badRequest "invalid query parameters".toList

/-- The byte that the two bytes behind a percent sign are read as. -/
def escapedByte (encoded : List UInt8) : Except ApiError UInt8 :=
  if fromUtf8 encoded then
    match fromStrRadix16 encoded with
    | some value => .ok value
    | none => .error invalidQuery
  else .error invalidQuery

/-- The loop of `validate_query_encoding`. -/
def decodeQuery : List UInt8 → Except ApiError (List UInt8)
  | [] => .ok []
  | b :: rest =>
    if b = sign then
      match rest with
      | h :: l :: rest => (escapedByte [h, l]).bind fun value ↦ (decodeQuery rest).map (value :: ·)
      | _ => .error invalidQuery
    else (decodeQuery rest).map (b :: ·)

/-- `validate_query_encoding`. -/
def validateQueryEncoding (query : Text) : Except ApiError Unit :=
  (decodeQuery query.asBytes).bind fun decoded ↦
    if fromUtf8 decoded then .ok () else .error invalidQuery

/-! ### What is accepted -/

/-- Every percent sign followed by a plus sign and a digit is written with a zero for the plus
sign. -/
def zeroSigns : List UInt8 → List UInt8
  | [] => []
  | [b] => [b]
  | b :: c :: rest =>
    if b = sign ∧ c = plusSign ∧ rest.head?.any (fun h ↦ IsHex h) then
      sign :: 48 :: zeroSigns rest
    else b :: zeroSigns (c :: rest)

/-- Some percent sign is followed by a plus sign and a digit. -/
def HasSign (bytes : List UInt8) : Prop := ∃ h, IsHex h ∧ [sign, plusSign, h] <:+: bytes

/-- Well-formed percent-encoding of UTF-8. -/
def WellFormedQuery (bytes : List UInt8) : Prop :=
  Escaped bytes ∧ fromUtf8 (decode bytes) = true

/-- Two ASCII bytes are UTF-8. -/
theorem fromUtf8_pair {h l : UInt8} (hh : h.toNat < 128) (hl : l.toNat < 128) :
    fromUtf8 [h, l] = true := by
  have hsize : ∀ {b : UInt8}, b.toNat < 128 → (Char.ofUInt8 b).utf8Size = 1 := by
    intro b hb
    rw [Char.utf8Size_eq_one_iff]
    exact UInt32.le_iff_toNat_le.2 (by
      show b.toUInt32.toNat ≤ 127
      rw [UInt8.toNat_toUInt32]
      omega)
  have hback : ∀ b : UInt8, (Char.ofUInt8 b).toUInt8 = b := UInt8.toUInt8_toUInt32
  rw [fromUtf8, ByteArray.validateUTF8_eq_true_iff]
  have hvalid := (ByteArray.isValidUTF8_empty.push (hsize hh)).push (hsize hl)
  rw [hback, hback] at hvalid
  exact hvalid

/-- The digit that the first byte behind a percent sign is read as. -/
def firstDigit? (b : UInt8) : Option ℕ := if b = plusSign then some 0 else hexValue? b

theorem firstDigit?_lt {b : UInt8} {value : ℕ} (h : firstDigit? b = some value) :
    value < 16 ∧ b.toNat < 128 := by
  rw [firstDigit?] at h
  split at h
  · rename_i hb
    cases h
    subst hb
    decide
  · exact hexValue?_lt h

theorem digitsToU8_single (b : UInt8) : digitsToU8 [b] = hexValue? b := by
  rcases hb : hexValue? b with - | value
  · simp [digitsToU8, hb]
  · have hlt : value < 256 := by
      have := (hexValue?_lt hb).1
      omega
    simp [digitsToU8, hb, hlt]

theorem digitsToU8_pair (b c : UInt8) : digitsToU8 [b, c] =
    (hexValue? b).bind fun high ↦ (hexValue? c).map fun low ↦ high * 16 + low := by
  rcases hb : hexValue? b with - | high
  · simp [digitsToU8, hb]
  rcases hc : hexValue? c with - | low
  · simp [digitsToU8, hb, hc]
  · have hhigh := (hexValue?_lt hb).1
    have hlow := (hexValue?_lt hc).1
    have hlt : high < 256 := by omega
    have hlt' : high * 16 + low < 256 := by omega
    simp [digitsToU8, hb, hc, hlt, hlt']

/-- **What `from_str_radix` makes of two bytes.** -/
theorem fromStrRadix16_pair (h l : UInt8) : fromStrRadix16 [h, l] =
    (firstDigit? h).bind fun high ↦ (hexValue? l).map fun low ↦ byteOf high low := by
  show (if h = plusSign then digitsToU8 [l] else digitsToU8 [h, l]).map UInt8.ofNat = _
  rw [firstDigit?]
  by_cases hplus : h = plusSign
  · simp only [if_pos hplus, digitsToU8_single, Option.bind_some, byteOf, Nat.zero_mul,
      Nat.zero_add]
  · rw [if_neg hplus, if_neg hplus, digitsToU8_pair]
    rcases hexValue? h with - | high
    · rfl
    · rcases hexValue? l with - | low <;> rfl

/-- The bytes behind a percent sign that are accepted, and what they are read as. -/
theorem escapedByte_eq_ok_iff {h l value : UInt8} : escapedByte [h, l] = .ok value ↔
    ∃ high low, firstDigit? h = some high ∧ hexValue? l = some low ∧ value = byteOf high low := by
  rw [escapedByte, fromStrRadix16_pair]
  constructor
  · intro hok
    split at hok
    · rcases hh : firstDigit? h with - | high
      · rw [hh] at hok
        cases hok
      rcases hl : hexValue? l with - | low
      · rw [hh, hl] at hok
        cases hok
      · rw [hh, hl] at hok
        exact ⟨high, low, rfl, rfl, (Except.ok.inj hok).symm⟩
    · cases hok
  · rintro ⟨high, low, hh, hl, rfl⟩
    rw [if_pos (fromUtf8_pair (firstDigit?_lt hh).2 (hexValue?_lt hl).2), hh, hl]
    rfl

/-! ### Signs -/

theorem zeroSigns_head? (bytes : List UInt8) : (zeroSigns bytes).head? = bytes.head? := by
  fun_cases zeroSigns bytes with
  | case1 => rfl
  | case2 b => rfl
  | case3 b c rest hsign => rw [List.head?_cons, List.head?_cons, hsign.1]
  | case4 b c rest hsign => rfl

theorem zeroSigns_cons_of_ne {b : UInt8} (hb : b ≠ sign) (rest : List UInt8) :
    zeroSigns (b :: rest) = b :: zeroSigns rest := by
  rcases rest with - | ⟨c, rest⟩
  · rfl
  · rw [zeroSigns, if_neg fun h ↦ hb h.1]

/-- An escape that is accepted is written as one with two digits, of the same value. -/
theorem zeroSigns_escape {h l : UInt8} {high low : ℕ} (hh : firstDigit? h = some high)
    (hl : hexValue? l = some low) (rest : List UInt8) :
    ∃ h', hexValue? h' = some high ∧
      zeroSigns (sign :: h :: l :: rest) = sign :: h' :: l :: zeroSigns rest := by
  have hl' : IsHex l := isHex_iff.2 ⟨low, hl⟩
  rw [firstDigit?] at hh
  split at hh
  · rename_i hplus
    subst hplus
    cases hh
    refine ⟨48, by decide, ?_⟩
    rw [zeroSigns, if_pos ⟨rfl, rfl, by simpa using hl'⟩, zeroSigns_cons_of_ne hl'.ne_sign]
  · rename_i hplus
    have hh' : IsHex h := isHex_iff.2 ⟨high, hh⟩
    refine ⟨h, hh, ?_⟩
    rw [zeroSigns, if_neg fun hsign ↦ hplus hsign.2.1, zeroSigns_cons_of_ne hh'.ne_sign,
      zeroSigns_cons_of_ne hl'.ne_sign]

/-- A percent sign that is not read is left over. -/
theorem not_escaped_zeroSigns {h l : UInt8} (rest : List UInt8)
    (hnot : ¬∃ high low, firstDigit? h = some high ∧ hexValue? l = some low) :
    ¬Escaped (zeroSigns (sign :: h :: l :: rest)) := by
  have hstays : zeroSigns (sign :: h :: l :: rest) = sign :: zeroSigns (h :: l :: rest) := by
    rw [zeroSigns, if_neg]
    rintro ⟨-, rfl, hl⟩
    obtain ⟨low, hl⟩ := isHex_iff.1 (show IsHex l by simpa using hl)
    exact hnot ⟨0, low, rfl, hl⟩
  rw [hstays, escaped_cons]
  rintro ⟨hdigits, -⟩
  obtain ⟨h', l', hfirst, hsecond, hh, hl⟩ := hdigits rfl
  rw [← List.head?_eq_getElem?, zeroSigns_head?, List.head?_cons, Option.some.injEq] at hfirst
  subst hfirst
  rw [zeroSigns_cons_of_ne hh.ne_sign, List.getElem?_cons_succ, ← List.head?_eq_getElem?,
    zeroSigns_head?, List.head?_cons, Option.some.injEq] at hsecond
  subst hsecond
  obtain ⟨high, hhigh⟩ := isHex_iff.1 hh
  obtain ⟨low, hlow⟩ := isHex_iff.1 hl
  refine hnot ⟨high, low, ?_, hlow⟩
  rw [firstDigit?, if_neg, hhigh]
  rintro rfl
  exact absurd hh (by decide)

/-- One more byte in front of what is decoded. -/
theorem map_cons_eq_ok_iff {x : Except ApiError (List UInt8)} {p : Prop} {rest : List UInt8}
    (hx : ∀ decoded, x = .ok decoded ↔ p ∧ decoded = rest) {b : UInt8} {decoded : List UInt8} :
    x.map (b :: ·) = .ok decoded ↔ p ∧ decoded = b :: rest := by
  cases x with
  | error e =>
    refine iff_of_false (fun h ↦ by cases h) ?_
    rintro ⟨hp, -⟩
    cases (hx rest).2 ⟨hp, rfl⟩
  | ok decoded' =>
    obtain ⟨hp, rfl⟩ := (hx decoded').1 rfl
    rw [and_iff_right hp]
    show Except.ok _ = Except.ok _ ↔ _
    rw [Except.ok.injEq, eq_comm]

/-- **What the loop accepts, and what it makes of it.** -/
theorem decodeQuery_eq_ok_iff {bytes decoded : List UInt8} : decodeQuery bytes = .ok decoded ↔
    Escaped (zeroSigns bytes) ∧ decoded = decode (zeroSigns bytes) := by
  fun_induction decodeQuery bytes generalizing decoded with
  | case1 =>
    rw [Except.ok.injEq, eq_comm]
    exact (and_iff_right escaped_nil).symm
  | case2 h l rest ih =>
    by_cases hread : ∃ high low, firstDigit? h = some high ∧ hexValue? l = some low
    · obtain ⟨high, low, hh, hl⟩ := hread
      obtain ⟨h', hh', hzero⟩ := zeroSigns_escape hh hl rest
      rw [escapedByte_eq_ok_iff.2 ⟨high, low, hh, hl, rfl⟩, hzero,
        escaped_triple (isHex_iff.2 ⟨high, hh'⟩) (isHex_iff.2 ⟨low, hl⟩), decode_triple hh' hl]
      exact map_cons_eq_ok_iff fun _ ↦ ih
    · refine iff_of_false ?_ fun h ↦ not_escaped_zeroSigns rest hread h.1
      rcases hbyte : escapedByte [h, l] with e | value
      · intro hok
        cases hok
      · obtain ⟨high, low, hh, hl, -⟩ := escapedByte_eq_ok_iff.1 hbyte
        exact absurd ⟨high, low, hh, hl⟩ hread
  | case3 rest hshort =>
    -- too short for an escape, before and after signs are rewritten
    refine iff_of_false (fun hok ↦ by cases hok) fun h ↦ ?_
    rcases rest with - | ⟨c, - | ⟨d, rest⟩⟩
    · obtain ⟨h', l', hfirst, -⟩ := (escaped_cons.1 h.1).1 rfl
      cases hfirst
    · have hstays : zeroSigns [sign, c] = [sign, c] := by
        rw [zeroSigns, if_neg fun hsign ↦ absurd hsign.2.2 (by simp), zeroSigns]
      rw [hstays] at h
      obtain ⟨h', l', -, hsecond, -⟩ := (escaped_cons.1 h.1).1 rfl
      cases hsecond
    · exact hshort c d rest rfl
  | case4 b rest hb ih =>
    rw [zeroSigns_cons_of_ne hb, escaped_cons_of_ne hb, decode_cons_of_ne hb]
    exact map_cons_eq_ok_iff fun _ ↦ ih

/-! ### Which query strings are validated -/

/-- Without a sign there is nothing to rewrite. -/
theorem zeroSigns_eq_self {bytes : List UInt8} (h : ¬HasSign bytes) : zeroSigns bytes = bytes := by
  fun_induction zeroSigns bytes with
  | case1 => rfl
  | case2 b => rfl
  | case3 b c rest hsign ih =>
    obtain ⟨rfl, rfl, hhex⟩ := hsign
    rcases rest with - | ⟨d, rest⟩
    · cases hhex
    · exact absurd ⟨d, by simpa using hhex, [], rest, rfl⟩ h
  | case4 b c rest hsign ih =>
    rw [ih]
    rintro ⟨d, hd, hinfix⟩
    exact h ⟨d, hd, hinfix.trans (List.suffix_cons b _).isInfix⟩

/-- A percent sign with a plus sign behind it is not escaped. -/
theorem not_hasSign_of_escaped {bytes : List UInt8} (h : Escaped bytes) : ¬HasSign bytes := by
  rintro ⟨d, -, before, rest, rfl⟩
  obtain ⟨h', l', hfirst, -, hhex, -⟩ := h before.length (by simp)
  obtain rfl : plusSign = h' := by simpa using hfirst
  exact absurd hhex (by decide)

theorem validateQueryEncoding_eq_ok_iff (query : Text) :
    validateQueryEncoding query = .ok () ↔ WellFormedQuery (zeroSigns query.asBytes) := by
  rw [validateQueryEncoding, WellFormedQuery]
  rcases hdecode : decodeQuery query.asBytes with e | decoded
  · refine iff_of_false (fun h ↦ by cases h) ?_
    rintro ⟨hescaped, -⟩
    rw [decodeQuery_eq_ok_iff.2 ⟨hescaped, rfl⟩] at hdecode
    cases hdecode
  · obtain ⟨hescaped, rfl⟩ := decodeQuery_eq_ok_iff.1 hdecode
    rw [and_iff_right hescaped]
    show (if _ then _ else _) = _ ↔ _
    split
    · rename_i hutf8
      exact iff_of_true rfl hutf8
    · rename_i hutf8
      exact iff_of_false (fun h ↦ by cases h) hutf8

/-- **Which query strings are validated rightly**: accepted exactly if they are well-formed, and
then checked as what they decode to. These are the ones without a percent sign, a plus sign and a
digit in a row, and those that are not well-formed either with a zero for each such plus sign. -/
theorem validates_encoding_iff (query : Text) :
    ((validateQueryEncoding query = .ok () ↔ WellFormedQuery query.asBytes) ∧
      (validateQueryEncoding query = .ok () →
        decodeQuery query.asBytes = .ok (decode query.asBytes))) ↔
    (HasSign query.asBytes → ¬WellFormedQuery (zeroSigns query.asBytes)) := by
  rw [validateQueryEncoding_eq_ok_iff]
  by_cases hsign : HasSign query.asBytes
  · have hnot : ¬WellFormedQuery query.asBytes := fun h ↦ not_hasSign_of_escaped h.1 hsign
    constructor
    · rintro ⟨hiff, -⟩ - hwell
      exact hnot (hiff.1 hwell)
    · intro hill
      exact ⟨iff_of_false (hill hsign) hnot, fun hwell ↦ absurd hwell (hill hsign)⟩
  · rw [zeroSigns_eq_self hsign]
    refine iff_of_true ⟨Iff.rfl, fun hwell ↦ ?_⟩ fun h ↦ absurd h hsign
    refine decodeQuery_eq_ok_iff.2 ?_
    rw [zeroSigns_eq_self hsign]
    exact ⟨hwell.1, rfl⟩

/-- `%+a` is accepted, and checked as a line feed. -/
theorem signed_escape_accepted :
    validateQueryEncoding "%+a".toList = .ok () ∧
      decodeQuery (Text.asBytes "%+a".toList) = .ok [10] ∧
      ¬WellFormedQuery (Text.asBytes "%+a".toList) := by
  have hsign : HasSign (Text.asBytes "%+a".toList) := ⟨97, by decide, [], [], rfl⟩
  exact ⟨by decide +kernel, by decide +kernel, fun h ↦ not_hasSign_of_escaped h.1 hsign⟩

end DnsBuffer
