import DnsBuffer.Dns.Suffix
import DnsBuffer.Filter.Grammar
import DnsBuffer.Foundation.Search
import Mathlib.Data.Bool.AllAny

/-!
# The verdict on a name

A name is blocked if some blocked domain is a dot suffix of its normal form and nothing exempted is:
neither an exception nor an entry of the allowlist, at whatever level. The two loops of
`Filter::is_blocked` decide this on every text, in at most one round for every label
(`isBlockedLoop_eq`).

For a domain of ASCII letters, digits, hyphens, underscores and dots, the three kinds of rule lines
(`BlockLine`) all give the one rule for its normal form, so that they block the domain and what is
below it (`Under`), in any spelling.
-/

namespace DnsBuffer

open Words

variable [Lowercase]

/-! ### The loops -/

namespace Filter

/-- `Filter::is_blocked` with its two loops, each for at most so many rounds. -/
def isBlockedLoop (f : Filter) (rounds : ℕ) (name : Text) : Option Bool :=
  let name := normalize name
  (Search.loop cutLabel (fun s ↦ s ∈ f.allowlist ∨ s ∈ f.rules.exceptions) rounds name).bind
    fun exempt ↦
      if exempt then some false
      else Search.loop cutLabel (fun s ↦ s ∈ f.rules.blocked) rounds name

/-- **The loops end**, with the verdict, after at most one round for every character and one
more. -/
theorem isBlockedLoop_eq (f : Filter) {rounds : ℕ} {name : Text}
    (hrounds : (normalize name).length < rounds) :
    f.isBlockedLoop rounds name = some (f.isBlocked name) := by
  have hchain : ∀ s, s :: afterDots s = s :: (cutLabel s).elim [] fun t ↦ t :: afterDots t :=
    fun s ↦ by rw [← afterDots_eq_cutLabel]
  have hlength : (normalize name :: afterDots (normalize name)).length ≤ rounds :=
    (Nat.succ_le_succ (length_afterDots_le _)).trans hrounds
  rw [isBlockedLoop, isBlocked]
  simp only [Search.loop_eq_any hchain _ hlength, Option.bind_some]
  split <;> rfl

theorem isBlocked_iff (f : Filter) (name : Text) : f.isBlocked name = true ↔
    (∃ b ∈ f.rules.blocked, DotSuffix b (normalize name)) ∧
      (∀ a ∈ f.allowlist, ¬DotSuffix a (normalize name)) ∧
      ∀ e ∈ f.rules.exceptions, ¬DotSuffix e (normalize name) := by
  have hexempt : ((normalize name :: afterDots (normalize name)).any fun s ↦
      s ∈ f.allowlist ∨ s ∈ f.rules.exceptions) = true ↔
        ¬((∀ a ∈ f.allowlist, ¬DotSuffix a (normalize name)) ∧
          ∀ e ∈ f.rules.exceptions, ¬DotSuffix e (normalize name)) := by
    simp only [List.any_eq_true, mem_candidates_iff, decide_eq_true_eq]
    constructor
    · rintro ⟨s, hs, hmem | hmem⟩ hnone
      · exact hnone.1 s hmem hs
      · exact hnone.2 s hmem hs
    · intro hsome
      by_contra hnone
      exact hsome ⟨fun a ha hsuffix ↦ hnone ⟨a, hsuffix, Or.inl ha⟩,
        fun e he hsuffix ↦ hnone ⟨e, hsuffix, Or.inr he⟩⟩
  have hblocked : ((normalize name :: afterDots (normalize name)).any fun s ↦
      s ∈ f.rules.blocked) = true ↔ ∃ b ∈ f.rules.blocked, DotSuffix b (normalize name) := by
    simp only [List.any_eq_true, mem_candidates_iff, decide_eq_true_eq]
    exact ⟨fun ⟨b, hb, hmem⟩ ↦ ⟨b, hmem, hb⟩, fun ⟨b, hmem, hb⟩ ↦ ⟨b, hb, hmem⟩⟩
  rw [isBlocked]
  split
  · rename_i hany
    exact iff_of_false Bool.false_ne_true fun h ↦ hexempt.1 hany h.2
  · rename_i hany
    rw [hblocked, and_iff_left (not_not.1 (mt hexempt.2 hany))]

end Filter

/-! ### Domains of hosts -/

/-- ASCII letters, digits, hyphens, underscores and dots. -/
def isHostChar (c : Char) : Bool := c.isAlphanum || c = '-' || c = '_' || c = '.'

/-- A text without the dots at its end. -/
def withoutDots (d : Text) : Text := d.rdropWhile (· == '.')

/-- A domain of host characters, with a dot that is not at its end. -/
structure HostDomain (d : Text) : Prop where
  chars : ∀ c ∈ d, isHostChar c = true
  dotted : '.' ∈ withoutDots d

omit [Lowercase] in
theorem isHostChar_iff {c : Char} : isHostChar c = true ↔
    c.toNat = 45 ∨ c.toNat = 46 ∨ (48 ≤ c.toNat ∧ c.toNat ≤ 57) ∨
      (65 ≤ c.toNat ∧ c.toNat ≤ 90) ∨ c.toNat = 95 ∨ (97 ≤ c.toNat ∧ c.toNat ≤ 122) := by
  have hhyphen : c = '-' ↔ c.toNat = 45 := Char.toNat_inj.symm
  have hunderscore : c = '_' ↔ c.toNat = 95 := Char.toNat_inj.symm
  have hdot : c = '.' ↔ c.toNat = 46 := Char.toNat_inj.symm
  have hupper : c.isUpper = true ↔ 65 ≤ c.toNat ∧ c.toNat ≤ 90 := decide_eq_true_iff
  have hlower : c.isLower = true ↔ 97 ≤ c.toNat ∧ c.toNat ≤ 122 := by
    show (decide (c.val ≥ 'a'.val) && decide (c.val ≤ 'z'.val)) = true ↔ _
    rw [Bool.and_eq_true, decide_eq_true_iff, decide_eq_true_iff]
    exact Iff.rfl
  have hdigit : c.isDigit = true ↔ 48 ≤ c.toNat ∧ c.toNat ≤ 57 := by
    rw [Char.isDigit, Bool.and_eq_true, decide_eq_true_iff, decide_eq_true_iff]
    exact Iff.rfl
  have halpha : c.isAlpha = (c.isUpper || c.isLower) := rfl
  simp only [isHostChar, Char.isAlphanum, halpha, Bool.or_eq_true, decide_eq_true_eq, hhyphen,
    hunderscore, hdot, hupper, hlower, hdigit]
  omega

omit [Lowercase] in
/-- A character is one of hosts if its lower case is, and then it is ASCII. -/
theorem isHostChar_of_toLower {c : Char} (h : isHostChar c.toLower = true) :
    isHostChar c = true ∧ c.toNat < 128 := by
  rw [isHostChar_iff, toNat_toLower] at h
  rw [isHostChar_iff]
  split at h <;> omega

omit [Lowercase] in
theorem isHostChar_toLower {c : Char} (h : isHostChar c = true) : isHostChar c.toLower = true := by
  rw [isHostChar_iff] at h
  rw [isHostChar_iff, toNat_toLower]
  split <;> omega

omit [Lowercase] in
theorem toLower_eq_dot_iff {c : Char} : c.toLower = '.' ↔ c = '.' := by
  rw [← Char.toNat_inj, ← Char.toNat_inj, toNat_toLower]
  show _ = 46 ↔ _ = 46
  split <;> omega

omit [Lowercase] in
theorem ascii_of_isHostChar {c : Char} (h : isHostChar c = true) : c.toNat < 128 := by
  rw [isHostChar_iff] at h
  omega

omit [Lowercase] in
/-- Host characters are no whitespace and none of the characters of other rule forms. -/
theorem not_special_of_isHostChar {c : Char} (h : isHostChar c = true) :
    isWhitespace c = false ∧
      c ∉ ['/', '*', '$', '|', '^', ' ', '\t', '#', '!', '@', '\n', '\r'] := by
  rw [isHostChar_iff] at h
  constructor
  · simp only [isWhitespace, Bool.or_eq_false_iff, Bool.and_eq_false_iff, decide_eq_false_iff_not,
      beq_eq_false_iff_ne]
    omega
  · intro hmem
    simp only [List.mem_cons, List.not_mem_nil, or_false] at hmem
    rcases hmem with rfl | rfl | rfl | rfl | rfl | rfl | rfl | rfl | rfl | rfl | rfl | rfl <;>
      revert h <;> decide

/-! ### Lines for a domain -/

/-- The lines that block a domain: `||d^`, an address and the domain, the domain alone. -/
inductive BlockLine (d : Text) : Text → Prop
  | adblock : BlockLine d (blockMark ++ (d ++ ['^']))
  | hosts {ip gap : Text} (hip : (IpAddr.parse ip).isSome) (hgap : Gap gap) :
      BlockLine d (ip ++ (gap ++ d))
  | plain : BlockLine d d

namespace HostDomain

variable {d : Text}

omit [Lowercase] in
theorem withoutDots_ne_nil (h : HostDomain d) : withoutDots d ≠ [] :=
  List.ne_nil_of_mem h.dotted

omit [Lowercase] in
theorem mem_withoutDots {c : Char} (hc : c ∈ withoutDots d) : c ∈ d :=
  (List.rdropWhile_prefix _ d).subset hc

theorem normalize_eq (h : HostDomain d) : normalize d = (withoutDots d).map Char.toLower :=
  Lowercase.toLowercase_ascii _ fun c hc ↦ ascii_of_isHostChar (h.chars c (mem_withoutDots hc))

theorem spells (h : HostDomain d) : Spells d := by
  have hclean : ∀ c ∈ normalize d, c ∉ ['/', '*', '$', '|', '^', ' ', '\t'] := by
    rw [h.normalize_eq, List.forall_mem_map]
    intro c hc hmem
    have hspecial := not_special_of_isHostChar
      (isHostChar_toLower (h.chars c (mem_withoutDots hc)))
    exact hspecial.2 (List.mem_append_left ['#', '!', '@', '\n', '\r'] hmem)
  have hdot : '.' ∈ normalize d := by
    rw [h.normalize_eq, List.mem_map]
    exact ⟨'.', h.dotted, toLower_eq_dot_iff.2 rfl⟩
  have hne : normalize d ≠ [] := List.ne_nil_of_mem hdot
  rw [Spells, validDomain, Bool.and_eq_true, Bool.and_eq_true, List.contains_iff_mem]
  refine ⟨⟨?_, ?_⟩, hdot⟩
  · rw [Bool.not_eq_true', List.isEmpty_eq_false_iff]
    exact hne
  · rw [Bool.not_eq_true', List.any_eq_false]
    exact fun c hc ↦ by simpa using hclean c hc

omit [Lowercase] in
theorem adblockName (h : HostDomain d) : AdblockName d := by
  intro c hc
  have hspecial := (not_special_of_isHostChar (h.chars c hc)).2
  refine ⟨?_, ?_⟩ <;> rintro rfl <;> exact hspecial (by decide)

omit [Lowercase] in
theorem plainName (h : HostDomain d) : PlainName d := by
  intro c hc
  have hspecial := not_special_of_isHostChar (h.chars c hc)
  refine ⟨hspecial.1, ?_⟩
  rintro rfl
  exact hspecial.2 (by decide)

omit [Lowercase] in
theorem unmarked (h : HostDomain d) : Unmarked d := by
  refine unmarked_of_head fun c hc hmark ↦ ?_
  have hspecial := (not_special_of_isHostChar (h.chars c (List.mem_of_mem_head? hc))).2
  simp only [List.mem_cons, List.not_mem_nil, or_false] at hmark
  rcases hmark with rfl | rfl | rfl | rfl <;> exact hspecial (by decide)

/-- **Each of the lines for a domain gives the rule for its normal form.** -/
theorem parseLine_block (h : HostDomain d) {raw : Text} (hline : BlockLine d raw.trim) :
    parseLine raw = some (.block (normalize d)) := by
  refine Documented.parseLine_eq ?_
  generalize raw.trim = line at hline
  cases hline with
  | adblock => exact .block h.adblockName h.spells .caret
  | hosts hip hgap =>
    have hdoc := @Documented.hosts _ _ _ _ [] hip hgap h.plainName h.spells (by simp)
    rwa [List.append_nil] at hdoc
  | plain => exact .plain h.unmarked h.plainName h.spells

theorem parseLine_exception (h : HostDomain d) {raw : Text}
    (hline : raw.trim = exceptionMark ++ (d ++ ['^'])) :
    parseLine raw = some (.exception (normalize d)) := by
  refine Documented.parseLine_eq ?_
  rw [hline]
  exact .exception h.adblockName h.spells .caret

end HostDomain

/-! ### Names under a domain -/

/-- The same domain, with letters in any case and any number of dots at its end. -/
def Spelling (d name : Text) : Prop :=
  (withoutDots name).map Char.toLower = (withoutDots d).map Char.toLower

/-- The domain, or a domain below it, in any spelling. -/
def Under (d name : Text) : Prop :=
  ∃ sub spelled, name = sub ++ spelled ∧ Spelling d spelled ∧
    (sub = [] ∨ sub.getLast? = some '.')

/-- A domain beside the domain: text that does not end with a dot, directly before it. -/
def Beside (d name : Text) : Prop :=
  ∃ before spelled, name = before ++ spelled ∧ Spelling d spelled ∧
    before ≠ [] ∧ before.getLast? ≠ some '.' ∧ ∀ c ∈ before, c.toNat < 128

omit [Lowercase] in
theorem withoutDots_append {spelled : Text} (h : withoutDots spelled ≠ []) (sub : Text) :
    withoutDots (sub ++ spelled) = sub ++ withoutDots spelled := by
  have hne : (spelled.reverse.dropWhile (· == '.')).isEmpty = false := by
    rw [List.isEmpty_eq_false_iff]
    exact mt List.reverse_eq_nil_iff.2 h
  show ((sub ++ spelled).reverse.dropWhile _).reverse = _
  rw [List.reverse_append, List.dropWhile_append, hne, if_neg Bool.false_ne_true,
    List.reverse_append, List.reverse_reverse]
  rfl

namespace HostDomain

variable {d name : Text}

omit [Lowercase] in
theorem spelling_ne_nil (h : HostDomain d) {spelled : Text} (hs : Spelling d spelled) :
    withoutDots spelled ≠ [] := by
  intro hnil
  rw [Spelling, hnil, List.map_nil, eq_comm, List.map_eq_nil_iff] at hs
  exact h.withoutDots_ne_nil hs

omit [Lowercase] in
theorem spelling_ascii (h : HostDomain d) {spelled : Text} (hs : Spelling d spelled) :
    ∀ c ∈ withoutDots spelled, c.toNat < 128 := by
  intro c hc
  have hmem : c.toLower ∈ (withoutDots d).map Char.toLower := hs ▸ List.mem_map_of_mem hc
  obtain ⟨c', hc', heq⟩ := List.mem_map.1 hmem
  refine (isHostChar_of_toLower ?_).2
  rw [← heq]
  exact isHostChar_toLower (h.chars c' (mem_withoutDots hc'))

/-- **The normal form of a name under a domain ends with that of the domain.** -/
theorem dotSuffix_of_under [LawfulLowercase] (h : HostDomain d) (hunder : Under d name) :
    DotSuffix (normalize d) (normalize name) := by
  obtain ⟨sub, spelled, rfl, hs, hsub⟩ := hunder
  have hname : normalize (sub ++ spelled) = Lowercase.toLowercase (sub ++ withoutDots spelled) :=
    congrArg Lowercase.toLowercase (withoutDots_append (h.spelling_ne_nil hs) sub)
  have hascii := h.spelling_ascii hs
  rw [hname, h.normalize_eq, ← hs]
  rcases hsub with rfl | hdot
  · exact Or.inl (Lowercase.toLowercase_ascii _ hascii)
  · obtain ⟨sub, rfl⟩ := List.getLast?_eq_some_iff.1 hdot
    refine Or.inr ?_
    -- the dot belongs to the part that is lowered letter by letter
    have hlower := LawfulLowercase.suffix_toLowercase sub ('.' :: withoutDots spelled)
      (List.forall_mem_cons.2 ⟨by decide, hascii⟩)
    rw [List.append_assoc]
    exact hlower

/-- The normal form of a name beside a domain does not. -/
theorem not_dotSuffix_of_beside (h : HostDomain d) (hbeside : Beside d name) :
    ¬DotSuffix (normalize d) (normalize name) := by
  obtain ⟨before, spelled, rfl, hs, hne, hdot, hascii⟩ := hbeside
  have hname : normalize (before ++ spelled) =
      before.map Char.toLower ++ (withoutDots d).map Char.toLower := by
    rw [← hs, ← List.map_append, ← Lowercase.toLowercase_ascii]
    · exact congrArg Lowercase.toLowercase (withoutDots_append (h.spelling_ne_nil hs) before)
    · exact List.forall_mem_append.2 ⟨hascii, h.spelling_ascii hs⟩
  rw [hname, h.normalize_eq]
  rintro (heq | ⟨more, heq⟩)
  · rw [List.append_left_eq_self, List.map_eq_nil_iff] at heq
    exact hne heq
  · rw [← List.singleton_append, ← List.append_assoc, List.append_cancel_right_eq] at heq
    have hlast := congrArg List.getLast? heq
    rw [List.getLast?_concat, List.getLast?_map, eq_comm, Option.map_eq_some_iff] at hlast
    obtain ⟨c, hc, hlower⟩ := hlast
    exact hdot (hc.trans (congrArg some (toLower_eq_dot_iff.1 hlower)))

end HostDomain

/-! ### The verdict -/

/-- The filter that `Filter::new` and `store` build from an allowlist and a text. -/
def filterOf (allowlist : List Text) (text : Text) : Filter :=
  (Filter.new allowlist).store (parseRules text)

/-- Some entry of the allowlist or some exception is a dot suffix of the name. -/
def Exempt (allowlist : List Text) (text name : Text) : Prop :=
  (∃ a ∈ allowlist, DotSuffix (normalize a) (normalize name)) ∨
    ∃ e ∈ (parseRules text).exceptions, DotSuffix e (normalize name)

theorem isBlocked_filterOf_iff (allowlist : List Text) (text name : Text) :
    (filterOf allowlist text).isBlocked name = true ↔
      (∃ b ∈ (parseRules text).blocked, DotSuffix b (normalize name)) ∧
        ¬Exempt allowlist text name := by
  rw [Filter.isBlocked_iff, Exempt]
  push Not
  refine and_congr_right fun _ ↦ and_congr_left fun _ ↦ ?_
  show (∀ a ∈ (allowlist.map normalize).toFinset, _) ↔ _
  simp only [List.mem_toFinset, List.forall_mem_map]

/-- **The verdict.** A name is blocked if some blocked domain is a dot suffix of it and nothing
exempted is. So each line for a domain blocks what is under the domain and not exempted, what is
under an exempted domain is not blocked whatever the other lines are, rules for a domain alone block
nothing beside it, and the loops end. -/
theorem isBlocked_dotSuffix [LawfulLowercase] (allowlist : List Text) (text name : Text) :
    ((filterOf allowlist text).isBlocked name = true ↔
      (∃ b ∈ (parseRules text).blocked, DotSuffix b (normalize name)) ∧
        ¬Exempt allowlist text name) ∧
    (∀ d, HostDomain d → (∃ raw ∈ Text.lines text, BlockLine d raw.trim) → Under d name →
      ((filterOf allowlist text).isBlocked name = true ↔ ¬Exempt allowlist text name)) ∧
    (∀ e, HostDomain e →
      (e ∈ allowlist ∨ ∃ raw ∈ Text.lines text, raw.trim = exceptionMark ++ (e ++ ['^'])) →
      Under e name → (filterOf allowlist text).isBlocked name = false) ∧
    (∀ d, HostDomain d → (∀ raw ∈ Text.lines text, BlockLine d raw.trim) → Beside d name →
      (filterOf allowlist text).isBlocked name = false) ∧
    ∀ rounds, (normalize name).length < rounds →
      (filterOf allowlist text).isBlockedLoop rounds name =
        some ((filterOf allowlist text).isBlocked name) := by
  have hiff := isBlocked_filterOf_iff allowlist text name
  refine ⟨hiff, ?_, ?_, ?_, fun rounds ↦ Filter.isBlockedLoop_eq _⟩
  · rintro d hd ⟨raw, hraw, hline⟩ hunder
    have hhas : (parseRules text).Has (.block (normalize d)) :=
      has_parseRules.2 ⟨raw, hraw, hd.parseLine_block hline⟩
    rw [hiff, and_iff_right ⟨normalize d, hhas, hd.dotSuffix_of_under hunder⟩]
  · intro e he hexempt hunder
    have hsuffix := he.dotSuffix_of_under hunder
    rw [Bool.eq_false_iff, Ne, hiff]
    rintro ⟨-, hnot⟩
    rcases hexempt with ha | ⟨raw, hraw, hline⟩
    · exact hnot (Or.inl ⟨e, ha, hsuffix⟩)
    · have hhas : (parseRules text).Has (.exception (normalize e)) :=
        has_parseRules.2 ⟨raw, hraw, he.parseLine_exception hline⟩
      exact hnot (Or.inr ⟨normalize e, hhas, hsuffix⟩)
  · intro d hd hall hbeside
    rw [Bool.eq_false_iff, Ne, hiff]
    rintro ⟨⟨b, hb, hsuffix⟩, -⟩
    have hhas : (parseRules text).Has (.block b) := hb
    obtain ⟨raw, hraw, hparse⟩ := has_parseRules.1 hhas
    rw [hd.parseLine_block (hall raw hraw), Option.some.injEq, Rule.block.injEq] at hparse
    exact hd.not_dotSuffix_of_beside hbeside (hparse ▸ hsuffix)

omit [Lowercase] in
/-- A hosts line for `Ads.Example.` blocks `a.ads.EXAMPLE.`, which `example.com` in the allowlist
does not save, and does not block `notads.example`. -/
theorem isBlocked_dotSuffix_hosts :
    let _lowercase := asciiLowercase
    let text : Text := "0.0.0.0 Ads.Example.".toList
    (filterOf ["example.com".toList] text).isBlocked "a.ads.EXAMPLE.".toList = true ∧
      (filterOf [] text).isBlocked "notads.example".toList = false := by
  intro _lowercase text
  have hlawful := lawfulLowercase_ascii
  have hdomain : HostDomain "Ads.Example.".toList := ⟨List.all_eq_true.1 (by decide), by decide⟩
  have hline : BlockLine "Ads.Example.".toList text.trim :=
    @BlockLine.hosts _ "0.0.0.0".toList [' '] (by decide)
      ⟨by decide, List.all_eq_true.1 (by decide)⟩
  have hlines : Text.lines text = [text] := by decide
  constructor
  · have hverdict := isBlocked_dotSuffix ["example.com".toList] text "a.ads.EXAMPLE.".toList
    refine (hverdict.2.1 _ hdomain ⟨text, ?_, hline⟩ ?_).2 ?_
    · rw [hlines]
      exact List.mem_singleton_self _
    · exact ⟨"a.".toList, "ads.EXAMPLE.".toList, rfl, by rw [Spelling]; decide, Or.inr rfl⟩
    · rw [Exempt]
      decide
  · have hverdict := isBlocked_dotSuffix [] text "notads.example".toList
    refine hverdict.2.2.2.1 _ hdomain ?_ ?_
    · rw [hlines, List.forall_mem_singleton]
      exact hline
    · exact ⟨"not".toList, "ads.example".toList, rfl, by rw [Spelling]; decide, by decide,
        by decide, List.all_iff_forall_prop.1 (by decide)⟩

end DnsBuffer
