import Mathlib.Data.List.DropRight
import Mathlib.Data.List.Basic
import Mathlib.Algebra.GroupWithZero.Nat

/-!
# Text

A Rust string is the list of its characters, and the functions of `str` the proxy calls are
functions on such lists. `str::to_lowercase` reads Unicode tables that are not part of the
repository; `Lowercase` records the one fact about it that is used, its value on ASCII text.
-/

namespace DnsBuffer

/-- A Rust string, as the list of its characters. -/
abbrev Text := List Char

/-- `str::len`: the number of bytes of the UTF-8 encoding. -/
def Text.utf8Len (s : Text) : ℕ := (s.map Char.utf8Size).sum

/-- `str::to_lowercase`, with its documented value on ASCII text. -/
class Lowercase where
  /-- The lower-case text. -/
  toLowercase : Text → Text
  /-- ASCII text is lowered letter by letter. -/
  toLowercase_ascii : ∀ s : Text, (∀ c ∈ s, c.toNat < 128) → toLowercase s = s.map Char.toLower

/-- What else is known of `str::to_lowercase`: characters are lowered one by one, and the only one
that is lowered by what is around it, a capital sigma, is not ASCII. So an ASCII ending is lowered
letter by letter whatever comes before it. -/
class LawfulLowercase [Lowercase] : Prop where
  suffix_toLowercase : ∀ s t : Text, (∀ c ∈ t, c.toNat < 128) →
    t.map Char.toLower <:+ Lowercase.toLowercase (s ++ t)

/-- Letter-by-letter lowering of ASCII letters, which leaves every other character alone. -/
@[reducible] def asciiLowercase : Lowercase where
  toLowercase s := s.map Char.toLower
  toLowercase_ascii _ _ := rfl

theorem lawfulLowercase_ascii : @LawfulLowercase asciiLowercase :=
  @LawfulLowercase.mk asciiLowercase fun s _ _ ↦ ⟨s.map Char.toLower, List.map_append.symm⟩

/-- `name.trim_end_matches('.').to_lowercase()`, the normal form under which hosts entries, rules
and cache keys are stored and looked up. -/
def normalize [Lowercase] (name : Text) : Text :=
  Lowercase.toLowercase (name.rdropWhile (· == '.'))

/-- Lowering an ASCII letter, on code points. -/
theorem toNat_toLower (c : Char) :
    c.toLower.toNat = if 65 ≤ c.toNat ∧ c.toNat ≤ 90 then c.toNat + 32 else c.toNat := by
  have hupper : (c.val ≥ 'A'.val ∧ c.val ≤ 'Z'.val) ↔ 65 ≤ c.toNat ∧ c.toNat ≤ 90 := Iff.rfl
  by_cases h : c.val ≥ 'A'.val ∧ c.val ≤ 'Z'.val
  · rw [if_pos (hupper.1 h), show c.toLower = ⟨c.val + ('a'.val - 'A'.val), _⟩ from dif_pos h]
    show (c.val + ('a'.val - 'A'.val)).toNat = c.val.toNat + 32
    have hle : c.val.toNat ≤ 90 := (hupper.1 h).2
    rw [UInt32.toNat_add, show ('a'.val - 'A'.val).toNat = 32 from rfl]
    omega
  · rw [if_neg (mt hupper.2 h), show c.toLower = c from dif_neg h]

/-! ### Cutting text -/

/-- `char::is_whitespace`: the Unicode property `White_Space`. -/
def isWhitespace (c : Char) : Bool :=
  let n := c.toNat
  (9 ≤ n && n ≤ 13) || n == 0x20 || n == 0x85 || n == 0xA0 || n == 0x1680 ||
    (0x2000 ≤ n && n ≤ 0x200A) || n == 0x2028 || n == 0x2029 || n == 0x202F || n == 0x205F ||
    n == 0x3000

namespace Text

/-- `str::trim`. -/
def trim (s : Text) : Text := (s.dropWhile isWhitespace).rdropWhile isWhitespace

/-- `str::lines`: split after every newline, which is dropped together with a carriage return
before it; no empty last line. -/
def lines (s : Text) : List Text :=
  let parts := s.splitOn '\n'
  let stripCr (l : Text) : Text := if l.getLast? = some '\r' then l.dropLast else l
  parts.dropLast.map stripCr ++ (parts.getLast?.filter fun l ↦ l ≠ []).toList

/-- `str::split_whitespace`. -/
def splitWhitespace (s : Text) : List Text := (s.splitOnP isWhitespace).filter fun w ↦ w ≠ []

theorem dropPrefix?_append (mark rest : Text) : (mark ++ rest).dropPrefix? mark = some rest :=
  List.dropPrefix?_eq_some_iff.2 ⟨mark, rfl, BEq.rfl⟩

theorem dropPrefix?_eq_none {mark s : Text} (h : ¬mark <+: s) : s.dropPrefix? mark = none := by
  rw [Option.eq_none_iff_forall_ne_some]
  intro rest hrest
  obtain ⟨mark', hs, hbeq⟩ := List.dropPrefix?_eq_some_iff.1 hrest
  exact h ⟨rest, by rw [hs, eq_of_beq hbeq]⟩

end Text

/-! ### Numbers -/

/-- The text without a plus sign at its front. -/
def withoutPlus : Text → Text
  | '+' :: rest => rest
  | s => s

/-- The number a numeral stands for: digits, after a plus sign or not. -/
def numeral? (s : Text) : Option ℕ :=
  if withoutPlus s ≠ [] ∧ (withoutPlus s).all Char.isDigit then
    some (Nat.ofDigitChars 10 (withoutPlus s) 0)
  else none

/-- `str::parse` to an unsigned type with values below the bound. -/
def Text.parseUnsigned (bound : ℕ) (s : Text) : Option ℕ := (numeral? s).filter fun n ↦ n < bound

/-- `Display` of an unsigned number. -/
def Text.ofNat (n : ℕ) : Text := Nat.toDigits 10 n

theorem isDigit_of_mem_ofNat {n : ℕ} {c : Char} (hc : c ∈ Text.ofNat n) : c.isDigit = true :=
  Nat.isDigit_of_mem_toDigits (by decide) (by decide) hc

/-- No sign in front of a number. -/
theorem withoutPlus_ofNat_append (n : ℕ) (s : Text) :
    withoutPlus (Text.ofNat n ++ s) = Text.ofNat n ++ s := by
  obtain ⟨c, rest, hcons⟩ := List.exists_cons_of_ne_nil (@Nat.toDigits_ne_nil n 10)
  have hdigit : c.isDigit = true :=
    isDigit_of_mem_ofNat (show c ∈ Nat.toDigits 10 n from hcons ▸ List.mem_cons_self)
  have htext : Text.ofNat n = c :: rest := hcons
  rw [htext, List.cons_append]
  unfold withoutPlus
  split
  · rename_i hplus
    obtain ⟨rfl, -⟩ := List.cons.inj hplus
    exact absurd hdigit (by decide)
  · rfl

theorem numeral?_ofNat_append_eq_some {s : Text} (n : ℕ) (hs : ∀ c ∈ s, c.isDigit = true) :
    numeral? (Text.ofNat n ++ s) = some (10 ^ s.length * n + Nat.ofDigitChars 10 s 0) := by
  have hdigits : ∀ c ∈ Text.ofNat n ++ s, c.isDigit = true := by
    intro c hc
    rcases List.mem_append.1 hc with hc | hc
    · exact isDigit_of_mem_ofNat hc
    · exact hs c hc
  have hne : Text.ofNat n ++ s ≠ [] := List.append_ne_nil_of_left_ne_nil Nat.toDigits_ne_nil s
  rw [numeral?, withoutPlus_ofNat_append, if_pos ⟨hne, List.all_eq_true.2 hdigits⟩,
    Nat.ofDigitChars_append, Text.ofNat, Nat.ofDigitChars_ten_toDigits,
    Nat.ofDigitChars_eq_ofDigitChars_zero]

theorem numeral?_ofNat_append_eq_none {s : Text} (n : ℕ) (hs : ¬∀ c ∈ s, c.isDigit = true) :
    numeral? (Text.ofNat n ++ s) = none := by
  rw [numeral?, withoutPlus_ofNat_append, if_neg]
  rintro ⟨-, hdigits⟩
  exact hs fun c hc ↦ List.all_eq_true.1 hdigits c (List.mem_append_right _ hc)

theorem numeral?_ofNat (n : ℕ) : numeral? (Text.ofNat n) = some n := by
  have hnil : ∀ c ∈ ([] : Text), c.isDigit = true := List.forall_mem_nil _
  have happend := numeral?_ofNat_append_eq_some n hnil
  rw [List.append_nil] at happend
  rw [happend]
  simp

theorem ofDigitChars_eq_zero_iff {s : Text} (hs : ∀ c ∈ s, c.isDigit = true) :
    Nat.ofDigitChars 10 s 0 = 0 ↔ ∀ c ∈ s, c = '0' := by
  induction s with
  | nil => simp
  | cons c s ih =>
    have hdigit : 48 ≤ c.toNat := (Char.isDigit_iff_toNat.1 (hs c List.mem_cons_self)).1
    have hzero : c.toNat - 48 = 0 ↔ c = '0' := by
      rw [← Char.toNat_inj]
      show c.toNat - 48 = 0 ↔ c.toNat = 48
      omega
    have hvalue : Nat.ofDigitChars 10 (c :: s) 0 =
        10 ^ s.length * (c.toNat - 48) + Nat.ofDigitChars 10 s 0 := by
      rw [Nat.ofDigitChars_cons, Nat.ofDigitChars_eq_ofDigitChars_zero, Nat.mul_zero, Nat.zero_add]
      rfl
    rw [hvalue, Nat.add_eq_zero_iff, Nat.mul_eq_zero, hzero, List.forall_mem_cons,
      ih fun d hd ↦ hs d (List.mem_cons_of_mem c hd)]
    simp

/-- What can stand behind a number without changing it. -/
theorem Text.parseUnsigned_ofNat_append_iff {bound n : ℕ} {s : Text} (h : n < bound) :
    Text.parseUnsigned bound (Text.ofNat n ++ s) = some n ↔
      s = [] ∨ (n = 0 ∧ ∀ c ∈ s, c = '0') := by
  by_cases hs : ∀ c ∈ s, c.isDigit = true
  · have hself : Text.parseUnsigned bound (Text.ofNat n ++ s) = some n ↔
        10 ^ s.length * n + Nat.ofDigitChars 10 s 0 = n := by
      rw [Text.parseUnsigned, numeral?_ofNat_append_eq_some n hs, Option.filter_eq_some_iff]
      simp [h]
    rw [hself, ← ofDigitChars_eq_zero_iff hs]
    cases s with
    | nil => simp
    | cons c s =>
      have hpow : 10 ≤ 10 ^ (c :: s).length := Nat.le_self_pow (by simp) 10
      have hshift : 10 * n ≤ 10 ^ (c :: s).length * n := Nat.mul_le_mul_right n hpow
      constructor
      · intro heq
        exact Or.inr ⟨by omega, by omega⟩
      · rintro (hnil | ⟨rfl, hvalue⟩)
        · cases hnil
        · rw [hvalue, Nat.mul_zero]
  · rw [Text.parseUnsigned, numeral?_ofNat_append_eq_none n hs]
    constructor
    · intro hnone
      cases hnone
    · rintro (rfl | ⟨-, hzeros⟩)
      · exact absurd (List.forall_mem_nil _) hs
      · exact absurd (fun c hc ↦ by rw [hzeros c hc]; rfl) hs

/-! ### Labels -/

/-- What is left of a text after each of its dots, from the left: the candidates the scanning loops
reach by `candidate = &candidate[pos + 1..]`. -/
def afterDots : Text → List Text
  | [] => []
  | c :: rest => if c = '.' then rest :: afterDots rest else afterDots rest

end DnsBuffer
