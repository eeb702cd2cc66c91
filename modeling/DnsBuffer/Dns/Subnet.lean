import DnsBuffer.Dns.Address
import DnsBuffer.Dns.Ecs
import DnsBuffer.Foundation.Mask

/-!
# The configured subnet

`ecs::parse_subnet` reads `"1.2.3.0/24"` and masks the address with `ecs::mask_ip`, whose shift
overflows for a prefix longer than the address (`isSome_maskIp_iff`). The range check in front of it
is exactly what the shift needs: a text that writes an address and a prefix is accepted if the
prefix is not longer than the address (`parseSubnet_cases`), and then the shift is below the width
of the word.
-/

namespace DnsBuffer

/-! ### The model -/

/-- `str::split_once`. -/
def Text.splitOnce (c : Char) (s : Text) : Option (Text × Text) :=
  match s.dropWhile fun d ↦ d ≠ c with
  | [] => none
  | _ :: rest => some (s.takeWhile fun d ↦ d ≠ c, rest)

/-- A difference of `u8`s; nothing where it overflows. -/
def u8Sub (a : ℕ) (b : UInt8) : Option ℕ := if b.toNat ≤ a then some (a - b.toNat) else none

/-- `<<`; nothing where it overflows, that is where the shift is not below the width. -/
def checkedShl {w : ℕ} (x : BitVec w) (shift : ℕ) : Option (BitVec w) :=
  if shift < w then some (x <<< shift) else none

/-- The arm of `mask_ip` for words of a width. -/
def maskWord {w : ℕ} (bits : BitVec w) (prefixLen : UInt8) : Option (BitVec w) :=
  (if prefixLen = 0 then some 0
  else (u8Sub w prefixLen).bind (checkedShl (BitVec.allOnes w))).map fun mask ↦ bits &&& mask

/-- `mask_ip`; nothing where its arithmetic overflows. -/
def maskIp (ip : IpAddr) (prefixLen : UInt8) : Option EcsSubnet :=
  match ip with
  | .v4 bits => (maskWord bits prefixLen).map fun bits ↦ ⟨.v4 bits, prefixLen⟩
  | .v6 bits => (maskWord bits prefixLen).map fun bits ↦ ⟨.v6 bits, prefixLen⟩

/-- The number of bits of an address. -/
def IpAddr.width : IpAddr → ℕ
  | .v4 _ => 32
  | .v6 _ => 128

/-- How `parse_subnet` ends without a subnet: an error with its text, or an overflow. -/
inductive SubnetError
  | rejected (message : Text)
  | overflow
deriving DecidableEq

/-- `parse_subnet`. -/
def parseSubnet (s : Text) : Except SubnetError EcsSubnet :=
  match s.splitOnce '/' with
  | none => .error (.rejected ("invalid subnet ".toList ++ s))
  | some (addr, prefixLen) =>
    match IpAddr.parse addr with
    | none => .error (.rejected ("invalid subnet addr ".toList ++ s))
    | some addr =>
      match prefixLen.parseUnsigned (2 ^ 8) with
      | none => .error (.rejected ("invalid prefix ".toList ++ s))
      | some prefixLen =>
        if addr.width < prefixLen then
          .error (.rejected ("prefix /".toList ++ Text.ofNat prefixLen ++
            " out of range for ".toList ++ s))
        else
          match maskIp addr (UInt8.ofNat prefixLen) with
          | none => .error .overflow
          | some subnet => .ok subnet

/-- `subnet_from_config`, for the configured `fixed_subnet`. -/
def subnetFromConfig (fixedSubnet : Option Text) : Option EcsSubnet :=
  fixedSubnet.bind fun s ↦ (parseSubnet s).toOption

/-! ### Addresses and subnets -/

/-- A bit of an address, counted from the top. -/
def IpAddr.bit (i : ℕ) : IpAddr → Bool
  | .v4 bits => bits.getMsbD i
  | .v6 bits => bits.getMsbD i

/-- The address with all but its first bits cleared. -/
def IpAddr.network (n : ℕ) : IpAddr → IpAddr
  | .v4 bits => .v4 (bits &&& Mask.leading 32 n)
  | .v6 bits => .v6 (bits &&& Mask.leading 128 n)

/-- The text writes an address and, behind the first slash, the length of a prefix. -/
def Writes (s : Text) (ip : IpAddr) (n : ℕ) : Prop :=
  ∃ addr len, s.splitOnce '/' = some (addr, len) ∧ IpAddr.parse addr = some ip ∧
    numeral? len = some n

theorem IpAddr.width_le (ip : IpAddr) : ip.width ≤ 128 := by
  cases ip with
  | v4 bits =>
    show 32 ≤ 128
    decide
  | v6 bits =>
    show 128 ≤ 128
    decide

theorem IpAddr.width_network (ip : IpAddr) (n : ℕ) : (ip.network n).width = ip.width := by
  cases ip <;> rfl

theorem IpAddr.bit_network {ip : IpAddr} {n : ℕ} (hn : n ≤ ip.width) (i : ℕ) :
    (ip.network n).bit i = (decide (i < n) && ip.bit i) := by
  cases ip with
  | v4 bits => exact Mask.getMsbD_and_leading bits hn i
  | v6 bits => exact Mask.getMsbD_and_leading bits hn i

theorem IpAddr.network_network (ip : IpAddr) (n : ℕ) : (ip.network n).network n = ip.network n := by
  cases ip with
  | v4 bits => exact congrArg IpAddr.v4 (Mask.and_leading_and_leading bits)
  | v6 bits => exact congrArg IpAddr.v6 (Mask.and_leading_and_leading bits)

/-- Addresses of one family that agree on the prefix are in the same subnet. -/
theorem IpAddr.network_eq_of_agree {ip ip' : IpAddr} {n : ℕ} (hn : n ≤ ip.width)
    (hwidth : ip.width = ip'.width) (h : ∀ i < n, ip.bit i = ip'.bit i) :
    ip.network n = ip'.network n := by
  cases ip with
  | v4 bits =>
    cases ip' with
    | v4 bits' => exact congrArg IpAddr.v4 (Mask.and_leading_eq_of_agree hn h)
    | v6 bits' => cases hwidth
  | v6 bits =>
    cases ip' with
    | v4 bits' => cases hwidth
    | v6 bits' => exact congrArg IpAddr.v6 (Mask.and_leading_eq_of_agree hn h)

/-! ### The mask -/

theorem toNat_pos {prefixLen : UInt8} (h : prefixLen ≠ 0) : 0 < prefixLen.toNat := by
  refine Nat.pos_of_ne_zero fun hzero ↦ h ?_
  exact UInt8.toNat_inj.1 hzero

theorem exists_shift_lt {w : ℕ} {prefixLen : UInt8} (h : prefixLen.toNat ≤ w)
    (hzero : prefixLen ≠ 0) : ∃ shift, u8Sub w prefixLen = some shift ∧ shift < w ∧
      shift = w - prefixLen.toNat := by
  have hpos : 0 < prefixLen.toNat := toNat_pos hzero
  refine ⟨w - prefixLen.toNat, by rw [u8Sub, if_pos h], ?_, rfl⟩
  omega

/-- Where the prefix is not longer than the word, nothing overflows. -/
theorem maskWord_eq {w : ℕ} (bits : BitVec w) {prefixLen : UInt8} (h : prefixLen.toNat ≤ w) :
    maskWord bits prefixLen = some (bits &&& Mask.leading w prefixLen.toNat) := by
  rw [maskWord]
  by_cases hzero : prefixLen = 0
  · subst hzero
    rw [if_pos rfl, Option.map_some]
    exact congrArg (fun mask ↦ some (bits &&& mask)) (Mask.leading_zero w).symm
  · obtain ⟨shift, hsub, hlt, rfl⟩ := exists_shift_lt h hzero
    rw [if_neg hzero, hsub, Option.bind_some, checkedShl, if_pos hlt, Option.map_some]
    rfl

theorem maskIp_eq {ip : IpAddr} {prefixLen : UInt8} (h : prefixLen.toNat ≤ ip.width) :
    maskIp ip prefixLen = some ⟨ip.network prefixLen.toNat, prefixLen⟩ := by
  cases ip with
  | v4 bits => rw [maskIp, maskWord_eq bits h, Option.map_some, IpAddr.network]
  | v6 bits => rw [maskIp, maskWord_eq bits h, Option.map_some, IpAddr.network]

theorem u8Sub_eq_none {w : ℕ} {prefixLen : UInt8} (h : w < prefixLen.toNat) :
    u8Sub w prefixLen = none := by
  rw [u8Sub, if_neg (not_le.2 h)]

theorem maskWord_eq_none {w : ℕ} (bits : BitVec w) {prefixLen : UInt8}
    (h : w < prefixLen.toNat) : maskWord bits prefixLen = none := by
  have hzero : prefixLen ≠ 0 := by
    rintro rfl
    exact Nat.not_lt_zero w h
  rw [maskWord, if_neg hzero, u8Sub_eq_none h, Option.bind_none, Option.map_none]

/-- The arithmetic of the mask overflows exactly where the prefix is longer than the address. -/
theorem isSome_maskIp_iff {ip : IpAddr} {prefixLen : UInt8} :
    (maskIp ip prefixLen).isSome ↔ prefixLen.toNat ≤ ip.width := by
  constructor
  · intro h
    by_contra hlt
    rw [not_le] at hlt
    cases ip with
    | v4 bits =>
      rw [maskIp, maskWord_eq_none bits hlt] at h
      cases h
    | v6 bits =>
      rw [maskIp, maskWord_eq_none bits hlt] at h
      cases h
  · intro h
    rw [maskIp_eq h, Option.isSome_some]

/-! ### The parser -/

/-- The subnet of the addresses that agree with an address on its first bits. -/
def IpAddr.subnet (ip : IpAddr) (n : ℕ) : EcsSubnet := ⟨ip.network n, UInt8.ofNat n⟩

theorem toNat_ofNat_of_le_width {ip : IpAddr} {n : ℕ} (h : n ≤ ip.width) :
    (UInt8.ofNat n).toNat = n :=
  UInt8.toNat_ofNat_of_lt' (lt_of_le_of_lt (h.trans ip.width_le) (by decide))

theorem maskIp_ofNat {ip : IpAddr} {n : ℕ} (h : n ≤ ip.width) :
    maskIp ip (UInt8.ofNat n) = some (ip.subnet n) := by
  have htoNat : (UInt8.ofNat n).toNat = n := toNat_ofNat_of_le_width h
  have hmask : maskIp ip (UInt8.ofNat n) = _ := maskIp_eq (by rwa [htoNat])
  rw [hmask, htoNat]
  rfl

/-- Masking a masked address again. -/
theorem maskIp_subnet {ip : IpAddr} {n : ℕ} (h : n ≤ ip.width) :
    maskIp (ip.subnet n).addr (ip.subnet n).prefixLen = some (ip.subnet n) := by
  have hmask : maskIp (ip.network n) (UInt8.ofNat n) = some ((ip.network n).subnet n) :=
    maskIp_ofNat (by rwa [IpAddr.width_network])
  rw [IpAddr.subnet, hmask, IpAddr.subnet, IpAddr.network_network]

/-- A text that does not write an address and a length is rejected, before the mask is computed. -/
theorem writes_or_rejected (s : Text) :
    (∃ ip n, Writes s ip n) ∨ ∃ message, parseSubnet s = .error (.rejected message) := by
  rcases hsplit : s.splitOnce '/' with - | ⟨addr, len⟩
  · exact Or.inr ⟨_, by rw [parseSubnet, hsplit]⟩
  rcases haddr : IpAddr.parse addr with - | ip
  · exact Or.inr ⟨_, by simp only [parseSubnet, hsplit, haddr]; rfl⟩
  rcases hlen : numeral? len with - | n
  · have hparse : Text.parseUnsigned (2 ^ 8) len = none := by
      rw [Text.parseUnsigned, hlen, Option.filter_none]
    exact Or.inr ⟨_, by simp only [parseSubnet, hsplit, haddr, hparse]; rfl⟩
  · exact Or.inl ⟨ip, n, addr, len, hsplit, haddr, hlen⟩

theorem parseSubnet_of_le {s : Text} {ip : IpAddr} {n : ℕ} (h : Writes s ip n)
    (hn : n ≤ ip.width) : parseSubnet s = .ok (ip.subnet n) := by
  obtain ⟨addr, len, hsplit, haddr, hlen⟩ := h
  have hlt : n < 2 ^ 8 := lt_of_le_of_lt (hn.trans ip.width_le) (by decide)
  have hparse : Text.parseUnsigned (2 ^ 8) len = some n := by
    rw [Text.parseUnsigned, hlen, Option.filter_some, if_pos (decide_eq_true hlt)]
  simp only [parseSubnet, hsplit, haddr, hparse, maskIp_ofNat hn]
  rw [if_neg (not_lt.2 hn)]

/-- A prefix longer than the address: rejected, because it is out of range or not a `u8` at all. -/
theorem parseSubnet_of_lt {s : Text} {ip : IpAddr} {n : ℕ} (h : Writes s ip n)
    (hn : ip.width < n) : ∃ message, parseSubnet s = .error (.rejected message) := by
  obtain ⟨addr, len, hsplit, haddr, hlen⟩ := h
  simp only [parseSubnet, hsplit, haddr]
  rcases hparse : Text.parseUnsigned (2 ^ 8) len with - | m
  · exact ⟨_, rfl⟩
  · rw [Text.parseUnsigned, hlen] at hparse
    have hm : n = m := Option.some.inj (Option.filter_eq_some_iff.1 hparse).1
    subst hm
    simp only [if_pos hn]
    exact ⟨_, rfl⟩

/-- **How parsing ends**: with the subnet of an address and a prefix that is not longer than it, or
with a message. -/
theorem parseSubnet_cases (s : Text) :
    (∃ ip n, Writes s ip n ∧ n ≤ ip.width ∧ parseSubnet s = .ok (ip.subnet n)) ∨
      ∃ message, parseSubnet s = .error (.rejected message) := by
  obtain ⟨ip, n, hw⟩ | hrejected := writes_or_rejected s
  · rcases le_or_gt n ip.width with hn | hn
    · exact Or.inl ⟨ip, n, hw, hn, parseSubnet_of_le hw hn⟩
    · exact Or.inr (parseSubnet_of_lt hw hn)
  · exact Or.inr hrejected

theorem parseSubnet_ne_overflow (s : Text) : parseSubnet s ≠ .error .overflow := by
  obtain ⟨ip, n, -, -, hok⟩ | ⟨message, hrejected⟩ := parseSubnet_cases s
  · rw [hok]
    simp
  · rw [hrejected]
    simp

theorem exists_writes_of_parseSubnet {s : Text} {subnet : EcsSubnet}
    (h : parseSubnet s = .ok subnet) :
    ∃ ip n, Writes s ip n ∧ n ≤ ip.width ∧ subnet = ip.subnet n := by
  obtain ⟨ip, n, hw, hn, hok⟩ | ⟨message, hrejected⟩ := parseSubnet_cases s
  · exact ⟨ip, n, hw, hn, Except.ok.inj (h.symm.trans hok)⟩
  · rw [hrejected] at h
    cases h

/-! ### Writing a subnet -/

theorem Text.splitOnce_append {c : Char} {s : Text} (h : c ∉ s) (rest : Text) :
    Text.splitOnce c (s ++ c :: rest) = some (s, rest) := by
  have hne : ∀ d ∈ s, decide (d ≠ c) = true := by
    intro d hd
    refine decide_eq_true ?_
    rintro rfl
    exact h hd
  rw [Text.splitOnce, List.dropWhile_append_of_pos hne, List.dropWhile_cons_of_neg (by simp),
    List.takeWhile_append_of_pos hne, List.takeWhile_cons_of_neg (by simp), List.append_nil]

/-- An address written by `display`, a slash and a length. -/
def EcsSubnet.format (display : IpAddr → Text) (subnet : EcsSubnet) : Text :=
  display subnet.addr ++ '/' :: Text.ofNat subnet.prefixLen.toNat

theorem writes_format {display : IpAddr → Text} {subnet : EcsSubnet}
    (h : IpAddr.parse (display subnet.addr) = some subnet.addr) :
    Writes (subnet.format display) subnet.addr subnet.prefixLen.toNat := by
  have hslash : '/' ∉ display subnet.addr := by
    intro hmem
    have hchar : IsAddressChar '/' := IpAddr.forall_isAddressChar (by rw [h]; rfl) '/' hmem
    revert hchar
    rw [IsAddressChar]
    decide
  exact ⟨_, _, Text.splitOnce_append hslash _, h, numeral?_ofNat _⟩

/-- A subnet that was written is read again. -/
theorem parseSubnet_format {display : IpAddr → Text} {ip : IpAddr} {n : ℕ}
    (h : IpAddr.parse (display (ip.network n)) = some (ip.network n)) (hn : n ≤ ip.width) :
    parseSubnet ((ip.subnet n).format display) = .ok (ip.subnet n) := by
  have hw : Writes ((ip.subnet n).format display) (ip.network n) (UInt8.ofNat n).toNat :=
    writes_format h
  rw [toNat_ofNat_of_le_width hn] at hw
  have hparse := parseSubnet_of_le hw (by rwa [IpAddr.width_network])
  rw [hparse, IpAddr.subnet, IpAddr.network_network]
  rfl

/-! ### What a configured subnet discloses -/

/-- **A configured subnet discloses no host bits.**

* A text that is accepted writes an address and a prefix that is not longer than it; the shift of
  the mask is below the width of the word; the subnet agrees with the address on the prefix and is
  zero on the other bits; every other text that writes an address of the subnet with this prefix
  gives the same subnet; masking it again changes nothing, and neither does writing and reading it.
* Parsing never overflows, since it masks only where the mask is defined, and a longer prefix is
  rejected. A subnet from the configuration was accepted. -/
theorem subnet_discloses_leading_bits (display : IpAddr → Text) :
    (∀ s subnet, parseSubnet s = .ok subnet → ∃ ip, Writes s ip subnet.prefixLen.toNat ∧
      subnet.prefixLen.toNat ≤ ip.width ∧ subnet.addr.width = ip.width ∧
      (subnet.prefixLen ≠ 0 → ∃ shift, u8Sub ip.width subnet.prefixLen = some shift ∧
        shift < ip.width ∧ shift = ip.width - subnet.prefixLen.toNat) ∧
      maskIp ip subnet.prefixLen = some subnet ∧
      (∀ i < ip.width,
        subnet.addr.bit i = (decide (i < subnet.prefixLen.toNat) && ip.bit i)) ∧
      (∀ s' ip', Writes s' ip' subnet.prefixLen.toNat → ip'.width = ip.width →
        (∀ i < subnet.prefixLen.toNat, ip.bit i = ip'.bit i) → parseSubnet s' = .ok subnet) ∧
      maskIp subnet.addr subnet.prefixLen = some subnet ∧
      (IpAddr.parse (display subnet.addr) = some subnet.addr →
        parseSubnet (subnet.format display) = .ok subnet)) ∧
    (∀ s, parseSubnet s ≠ .error .overflow) ∧
    (∀ ip prefixLen, (maskIp ip prefixLen).isSome ↔ prefixLen.toNat ≤ ip.width) ∧
    (∀ s ip n, Writes s ip n → ip.width < n →
      ∃ message, parseSubnet s = .error (.rejected message)) ∧
    (∀ fixedSubnet subnet, subnetFromConfig fixedSubnet = some subnet →
      ∃ s, fixedSubnet = some s ∧ parseSubnet s = .ok subnet) := by
  refine ⟨?_, parseSubnet_ne_overflow, fun ip prefixLen ↦ isSome_maskIp_iff,
    fun s ip n ↦ parseSubnet_of_lt, ?_⟩
  · intro s subnet h
    obtain ⟨ip, n, hw, hn, rfl⟩ := exists_writes_of_parseSubnet h
    have hlen : (ip.subnet n).prefixLen.toNat = n := toNat_ofNat_of_le_width hn
    have hwidth : (ip.subnet n).addr.width = ip.width := ip.width_network n
    have hself : maskIp (ip.subnet n).addr (ip.subnet n).prefixLen = some (ip.subnet n) :=
      maskIp_subnet hn
    refine ⟨ip, ?_⟩
    rw [hlen]
    refine ⟨hw, hn, hwidth, ?_, maskIp_ofNat hn, fun i _ ↦ IpAddr.bit_network hn i, ?_, hself, ?_⟩
    · intro hzero
      obtain ⟨shift, hsub, hlt, hshift⟩ := exists_shift_lt (hlen.le.trans hn) hzero
      exact ⟨shift, hsub, hlt, hshift.trans (congrArg (ip.width - ·) hlen)⟩
    · intro s' ip' hw' hwidth' hagree
      rw [parseSubnet_of_le hw' (hwidth'.symm ▸ hn), IpAddr.subnet, IpAddr.subnet,
        IpAddr.network_eq_of_agree hn hwidth'.symm hagree]
    · intro hdisplay
      exact parseSubnet_format hdisplay hn
  · intro fixedSubnet subnet h
    obtain ⟨s, hs, hparse⟩ := Option.bind_eq_some_iff.1 h
    rcases hresult : parseSubnet s with e | accepted
    · rw [hresult] at hparse
      cases hparse
    · rw [hresult] at hparse
      exact ⟨s, hs, hresult.trans (congrArg Except.ok (Option.some.inj hparse))⟩

/-- An address in dotted-quad form; what `Display` writes for IPv4. -/
def dottedQuad : IpAddr → Text
  | .v4 bits =>
    Text.ofNat (bits.toNat / 2 ^ 24) ++ '.' :: Text.ofNat (bits.toNat / 2 ^ 16 % 256) ++
      '.' :: Text.ofNat (bits.toNat / 2 ^ 8 % 256) ++ '.' :: Text.ofNat (bits.toNat % 256)
  | .v6 _ => []

theorem subnet_discloses_leading_bits_quad :
    parseSubnet "203.0.113.77/24".toList = .ok ⟨.v4 0xCB007100#32, 24⟩ ∧
      parseSubnet "203.0.113.0/24".toList = .ok ⟨.v4 0xCB007100#32, 24⟩ := by
  have haccepted : parseSubnet "203.0.113.77/24".toList = .ok ⟨.v4 0xCB007100#32, 24⟩ := by decide
  obtain ⟨ip, -, -, -, -, -, -, -, -, hround⟩ :=
    (subnet_discloses_leading_bits dottedQuad).1 _ _ haccepted
  have hparse : IpAddr.parse (dottedQuad (.v4 0xCB007100#32)) = some (.v4 0xCB007100#32) := by
    decide
  refine ⟨haccepted, ?_⟩
  have hformat : EcsSubnet.format dottedQuad ⟨.v4 0xCB007100#32, 24⟩ = "203.0.113.0/24".toList := by
    decide
  rw [← hformat]
  exact hround hparse

end DnsBuffer
