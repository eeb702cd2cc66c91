import DnsBuffer.Dns.Message

/-!
# Parsing addresses

`str::parse::<IpAddr>` as the standard library's recursive-descent parser reads it: dotted-quad
IPv4 without leading zeros, or IPv6 with at most one `::` and an optional trailing dotted quad. A
reader consumes a front part of its input or fails without consuming anything; an address is parsed
when a reader consumes the whole text.
-/

namespace DnsBuffer

/-- A reader: what it read and what is left. -/
abbrev Reader (α : Type) := Text → Option (α × Text)

namespace Reader

/-- `char::to_digit`. -/
def digit? (radix : ℕ) (c : Char) : Option ℕ :=
  let value :=
    if '0' ≤ c ∧ c ≤ '9' then c.toNat - '0'.toNat
    else if 'a' ≤ c ∧ c ≤ 'f' then c.toNat - 'a'.toNat + 10
    else if 'A' ≤ c ∧ c ≤ 'F' then c.toNat - 'A'.toNat + 10
    else radix
  if value < radix then some value else none

/-- `read_number`: between one and `maxDigits` digits, all that are there, with a value below
`bound`; a leading zero only where it is allowed. -/
def number (radix maxDigits bound : ℕ) (allowZeroPrefix : Bool) : Reader ℕ := fun s ↦
  let digits := s.takeWhile fun c ↦ (digit? radix c).isSome
  let value := digits.foldl (fun acc c ↦ acc * radix + (digit? radix c).getD 0) 0
  if digits.length = 0 ∨ maxDigits < digits.length then none
  else if !allowZeroPrefix && digits.head? == some '0' && 1 < digits.length then none
  else if value < bound then some (value, s.drop digits.length)
  else none

/-- `read_separator`: the inner reader, behind the separator for every element but the first. -/
def separated {α : Type} (sep : Char) (index : ℕ) (inner : Reader α) : Reader α := fun s ↦
  if index = 0 then inner s
  else match s with
    | c :: rest => if c = sep then inner rest else none
    | [] => none

/-- `read_ipv4_addr`, from the `index`-th octet on. -/
def octets : ℕ → ℕ → Reader (List ℕ)
  | 0, _, s => some ([], s)
  | left + 1, index, s =>
    (separated '.' index (number 10 3 256 false) s).bind fun (octet, rest) ↦
      (octets left (index + 1) rest).map fun (more, rest) ↦ (octet :: more, rest)

/-- `read_ipv4_addr`. -/
def ipv4 : Reader (List ℕ) := octets 4 0

/-- `read_groups`: at most `left` groups from the `index`-th on, the last two of which may be
written as a dotted quad. Returns the groups and whether a dotted quad ended them. -/
def groups : ℕ → ℕ → Text → (List ℕ × Bool) × Text
  | 0, _, s => (([], false), s)
  | left + 1, index, s =>
    let quad := if 0 < left then separated ':' index ipv4 s else none
    match quad with
    | some (octets, rest) =>
      (([octets.getD 0 0 * 256 + octets.getD 1 0, octets.getD 2 0 * 256 + octets.getD 3 0], true),
        rest)
    | none =>
      match separated ':' index (number 16 4 65536 true) s with
      | some (group, rest) =>
        let ((more, quad), rest) := groups left (index + 1) rest
        ((group :: more, quad), rest)
      | none => (([], false), s)

/-- `read_ipv6_addr`: eight groups, or fewer on the two sides of one `::`. -/
def ipv6 : Reader (List ℕ) := fun s ↦
  let ((head, headQuad), rest) := groups 8 0 s
  if head.length = 8 then some (head, rest)
  else if headQuad then none
  else match rest with
    | ':' :: ':' :: rest =>
      let ((tail, _), rest) := groups (7 - head.length) 0 rest
      some (head ++ List.replicate (8 - head.length - tail.length) 0 ++ tail, rest)
    | _ => none

end Reader

/-- The value of a list of digits, most significant first. -/
def wordValue (base : ℕ) (digits : List ℕ) : ℕ := digits.foldl (fun acc d ↦ acc * base + d) 0

/-- `str::parse::<IpAddr>`: IPv4 where it reads, else IPv6, and nothing left over. -/
def IpAddr.parse (s : Text) : Option IpAddr :=
  match Reader.ipv4 s with
  | some (octets, rest) =>
    if rest = [] then some (.v4 (BitVec.ofNat 32 (wordValue 256 octets))) else none
  | none =>
    match Reader.ipv6 s with
    | some (groups, rest) =>
      if rest = [] then some (.v6 (BitVec.ofNat 128 (wordValue 65536 groups))) else none
    | none => none

/-! ### What an address is written with -/

/-- The characters of addresses: hexadecimal digits, dots and colons. -/
def IsAddressChar (c : Char) : Prop := (Reader.digit? 16 c).isSome ∨ c = '.' ∨ c = ':'

theorem Reader.isSome_digit?_iff {radix : ℕ} (hradix : radix ≤ 16) {c : Char} :
    (digit? radix c).isSome ↔ (48 ≤ c.toNat ∧ c.toNat ≤ 57 ∧ c.toNat < 48 + radix) ∨
      (97 ≤ c.toNat ∧ c.toNat < 87 + radix) ∨ (65 ≤ c.toNat ∧ c.toNat < 55 + radix) := by
  have h0 : '0' ≤ c ↔ 48 ≤ c.toNat := Iff.rfl
  have h9 : c ≤ '9' ↔ c.toNat ≤ 57 := Iff.rfl
  have ha : 'a' ≤ c ↔ 97 ≤ c.toNat := Iff.rfl
  have hf : c ≤ 'f' ↔ c.toNat ≤ 102 := Iff.rfl
  have hA : 'A' ≤ c ↔ 65 ≤ c.toNat := Iff.rfl
  have hF : c ≤ 'F' ↔ c.toNat ≤ 70 := Iff.rfl
  have hvalues : '0'.toNat = 48 ∧ 'a'.toNat = 97 ∧ 'A'.toNat = 65 := ⟨rfl, rfl, rfl⟩
  rw [digit?]
  simp only [h0, h9, ha, hf, hA, hF, hvalues]
  split_ifs <;> simp <;> omega

/-- Digits of any radix are characters of addresses. -/
theorem isAddressChar_of_digit {radix : ℕ} (hradix : radix ≤ 16) {c : Char}
    (h : (Reader.digit? radix c).isSome) : IsAddressChar c := by
  rw [Reader.isSome_digit?_iff hradix] at h
  refine Or.inl ((Reader.isSome_digit?_iff le_rfl).2 ?_)
  omega

theorem IsAddressChar.toNat {c : Char} (h : IsAddressChar c) :
    (46 ≤ c.toNat ∧ c.toNat ≤ 58) ∨ (65 ≤ c.toNat ∧ c.toNat ≤ 70) ∨
      (97 ≤ c.toNat ∧ c.toNat ≤ 102) := by
  rcases h with h | rfl | rfl
  · rw [Reader.isSome_digit?_iff le_rfl] at h
    omega
  · decide
  · decide

namespace Reader

/-- What is left is a rest of the input, behind characters of addresses. -/
def Consumes (s rest : Text) : Prop := ∃ used, s = used ++ rest ∧ ∀ c ∈ used, IsAddressChar c

theorem Consumes.refl (s : Text) : Consumes s s := ⟨[], rfl, by simp⟩

theorem Consumes.trans {s t u : Text} (h : Consumes s t) (h' : Consumes t u) : Consumes s u := by
  obtain ⟨x, rfl, hx⟩ := h
  obtain ⟨y, rfl, hy⟩ := h'
  refine ⟨x ++ y, by rw [List.append_assoc], ?_⟩
  rw [List.forall_mem_append]
  exact ⟨hx, hy⟩

theorem Consumes.cons {c : Char} (hc : IsAddressChar c) {s rest : Text} (h : Consumes s rest) :
    Consumes (c :: s) rest :=
  Consumes.trans ⟨[c], rfl, by simpa using hc⟩ h

theorem consumes_number {radix maxDigits bound : ℕ} (hradix : radix ≤ 16) {zeros : Bool}
    {s rest : Text} {n : ℕ} (h : number radix maxDigits bound zeros s = some (n, rest)) :
    Consumes s rest := by
  rw [number] at h
  split_ifs at h
  simp only [Option.some.injEq, Prod.mk.injEq] at h
  obtain ⟨-, rfl⟩ := h
  refine ⟨s.takeWhile fun c ↦ (digit? radix c).isSome, ?_, fun c hc ↦ ?_⟩
  · exact (List.prefix_iff_eq_append.1 (List.takeWhile_prefix _)).symm
  · have hdigit := List.mem_takeWhile_imp (p := fun c ↦ (digit? radix c).isSome) hc
    exact isAddressChar_of_digit hradix hdigit

theorem consumes_separated {α : Type} {sep : Char} (hsep : IsAddressChar sep) {index : ℕ}
    {inner : Reader α} {s rest : Text} {a : α}
    (hinner : ∀ {s rest}, inner s = some (a, rest) → Consumes s rest)
    (h : separated sep index inner s = some (a, rest)) : Consumes s rest := by
  unfold separated at h
  split at h
  · exact hinner h
  · split at h
    · split at h
      · rename_i hc
        exact (hinner h).cons (hc ▸ hsep)
      · cases h
    · cases h

theorem consumes_octets {left index : ℕ} {s rest : Text} {values : List ℕ}
    (h : octets left index s = some (values, rest)) : Consumes s rest := by
  induction left generalizing index s values with
  | zero =>
    rw [octets, Option.some.injEq, Prod.mk.injEq] at h
    exact h.2 ▸ .refl s
  | succ left ih =>
    obtain ⟨⟨octet, behind⟩, hoctet, h⟩ := Option.bind_eq_some_iff.1 h
    obtain ⟨⟨more, rest'⟩, hmore, h⟩ := Option.map_eq_some_iff.1 h
    cases h
    exact (consumes_separated (Or.inr (Or.inl rfl)) (consumes_number (by decide)) hoctet).trans
      (ih hmore)

theorem consumes_groups (left index : ℕ) (s : Text) : Consumes s (groups left index s).2 := by
  induction left generalizing index s with
  | zero => exact .refl s
  | succ left ih =>
    rw [groups]
    dsimp only
    split
    · rename_i values rest hquad
      split at hquad
      · exact consumes_separated (Or.inr (Or.inr rfl)) consumes_octets hquad
      · cases hquad
    · split
      · rename_i group rest hgroup
        exact (consumes_separated (Or.inr (Or.inr rfl)) (consumes_number le_rfl) hgroup).trans
          (ih _ rest)
      · exact .refl s

theorem consumes_ipv6 {s rest : Text} {values : List ℕ} (h : ipv6 s = some (values, rest)) :
    Consumes s rest := by
  rw [ipv6] at h
  have hhead := consumes_groups 8 0 s
  dsimp only at h
  split at h
  · cases h
    exact hhead
  · split at h
    · cases h
    · split at h
      · rename_i behind hbehind
        cases h
        rw [hbehind] at hhead
        exact hhead.trans (((consumes_groups _ 0 behind).cons (Or.inr (Or.inr rfl))).cons
          (Or.inr (Or.inr rfl)))
      · cases h

end Reader

/-- **An address is written with the characters of addresses.** -/
theorem IpAddr.forall_isAddressChar {s : Text} (h : (IpAddr.parse s).isSome) :
    ∀ c ∈ s, IsAddressChar c := by
  suffices hall : Reader.Consumes s [] by
    obtain ⟨used, rfl, hused⟩ := hall
    rwa [List.append_nil]
  rw [IpAddr.parse] at h
  split at h
  · rename_i octets rest hread
    split at h
    · rename_i hrest
      exact hrest ▸ Reader.consumes_octets hread
    · cases h
  · split at h
    · rename_i groups rest hread
      split at h
      · rename_i hrest
        exact hrest ▸ Reader.consumes_ipv6 hread
      · cases h
    · cases h

/-- `std::net::SocketAddr`. -/
structure SocketAddr where
  ip : IpAddr
  port : UInt16
deriving DecidableEq

end DnsBuffer
