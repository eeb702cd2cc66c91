import DnsBuffer.Filter.Update
import DnsBuffer.Foundation.Words

/-!
# The grammar of rule files

What the documentation says a line of a rule file may be is `Documented`: adblock rules `||d^` and
exceptions `@@||d^`, with options or without, hosts lines, and plain domains with a comment behind
them. `parse_rules` does not read a line by this grammar. It strips a mark and cuts at the first of
a few characters, so what it accepts has to be found out, and it is more (`Overread`):

* behind the domain of an adblock rule, a `^` may be followed by anything: the path rule
  `||d^*/ad.js` blocks `d`;
* a `#` ends a plain domain also where no whitespace comes before it: the cosmetic filters
  `d##.banner` and `d#@#.banner` block `d`.

A text whose lines are all of other kinds is read by the grammar, and no other text is
(`reads_grammar_iff`).
-/

namespace DnsBuffer

open Words

/-! ### What a line says -/

/-- The mark of an exception. -/
def exceptionMark : Text := ['@', '@', '|', '|']

/-- The mark of a block. -/
def blockMark : Text := ['|', '|']

/-- The line is no comment, and not of adblock form. -/
structure Unmarked (line : Text) : Prop where
  notComment : ∀ c ∈ line.head?, c ≠ '!' ∧ c ≠ '#'
  notException : ¬exceptionMark <+: line
  notBlock : ¬blockMark <+: line

/-- The line up to its first `#`. -/
def beforeHash (line : Text) : Text := line.takeWhile fun c ↦ c ≠ '#'

theorem Text.trim_eq_strip (s : Text) : s.trim = strip isWhitespace s := rfl

theorem Text.splitWhitespace_eq_words (s : Text) : s.splitWhitespace = words isWhitespace s := rfl

section ParseLine

variable [Lowercase] {raw line rest : Text}

theorem ruleFor_eq_some {make : Text → Rule} {domain : Text} {rule : Rule} :
    ruleFor make domain = some rule ↔
      validDomain (normalize domain) = true ∧ make (normalize domain) = rule := by
  rw [ruleFor, Option.ite_none_right_eq_some, Option.some.injEq]

theorem parseLine_of_exception (h : raw.trim = exceptionMark ++ rest) :
    parseLine raw = ruleFor .exception (adblockDomain rest) := by
  have hdrop : (exceptionMark ++ rest).dropPrefix? ['@', '@', '|', '|'] = some rest :=
    Text.dropPrefix?_append exceptionMark rest
  rw [parseLine, h]
  simp only [hdrop]
  rw [if_neg (by simp [exceptionMark])]

theorem parseLine_of_block (h : raw.trim = blockMark ++ rest) :
    parseLine raw = ruleFor .block (adblockDomain rest) := by
  have hdrop : (blockMark ++ rest).dropPrefix? ['|', '|'] = some rest :=
    Text.dropPrefix?_append blockMark rest
  have hno : (blockMark ++ rest).dropPrefix? ['@', '@', '|', '|'] = none := by
    simp [blockMark, List.dropPrefix?]
  rw [parseLine, h]
  simp only [hdrop, hno]
  rw [if_neg (by simp [blockMark])]

/-- What an unmarked line says: its words before a `#` decide. -/
theorem parseLine_of_unmarked (h : Unmarked raw.trim) : parseLine raw =
    match words isWhitespace (beforeHash raw.trim) with
    | [] => none
    | [first] => ruleFor .block first
    | first :: second :: _ =>
      if (IpAddr.parse first).isSome then ruleFor .block second else none := by
  have hexception : raw.trim.dropPrefix? ['@', '@', '|', '|'] = none :=
    Text.dropPrefix?_eq_none h.notException
  have hblock : raw.trim.dropPrefix? ['|', '|'] = none := Text.dropPrefix?_eq_none h.notBlock
  rw [← words_strip, ← Text.trim_eq_strip, ← Text.splitWhitespace_eq_words, parseLine]
  simp only [hexception, hblock]
  rcases hline : raw.trim with - | ⟨c, line⟩
  · rfl
  · have hc := h.notComment c (by rw [hline]; rfl)
    rw [if_neg (by simp [hc])]
    rfl

/-- Where a rule comes from: an exception, a block, a hosts line or a plain domain. -/
theorem parseLine_cases {rule : Rule} (h : parseLine raw = some rule) :
    (∃ rest, raw.trim = exceptionMark ++ rest ∧
      ruleFor .exception (adblockDomain rest) = some rule) ∨
    (∃ rest, raw.trim = blockMark ++ rest ∧ ruleFor .block (adblockDomain rest) = some rule) ∨
    (Unmarked raw.trim ∧ ∃ first second more,
      words isWhitespace (beforeHash raw.trim) = first :: second :: more ∧
        (IpAddr.parse first).isSome ∧ ruleFor .block second = some rule) ∨
    (Unmarked raw.trim ∧ ∃ first, words isWhitespace (beforeHash raw.trim) = [first] ∧
      ruleFor .block first = some rule) := by
  by_cases hexception : exceptionMark <+: raw.trim
  · obtain ⟨rest, hrest⟩ := hexception
    rw [parseLine_of_exception hrest.symm] at h
    exact Or.inl ⟨rest, hrest.symm, h⟩
  by_cases hblock : blockMark <+: raw.trim
  · obtain ⟨rest, hrest⟩ := hblock
    rw [parseLine_of_block hrest.symm] at h
    exact Or.inr (Or.inl ⟨rest, hrest.symm, h⟩)
  by_cases hcomment : ∀ c ∈ raw.trim.head?, c ≠ '!' ∧ c ≠ '#'
  · have hunmarked : Unmarked raw.trim := ⟨hcomment, hexception, hblock⟩
    rw [parseLine_of_unmarked hunmarked] at h
    refine Or.inr (Or.inr ?_)
    split at h
    · cases h
    · rename_i first hwords
      exact Or.inr ⟨hunmarked, first, hwords, h⟩
    · rename_i first second more hwords
      rw [Option.ite_none_right_eq_some] at h
      exact Or.inl ⟨hunmarked, first, second, more, hwords, h⟩
  · -- a comment says nothing
    push Not at hcomment
    obtain ⟨c, hc, hmark⟩ := hcomment
    rw [parseLine, if_pos] at h
    · cases h
    · rw [Option.mem_def.1 hc, Option.some.injEq, Option.some.injEq]
      by_cases hbang : c = '!'
      · exact Or.inr (Or.inl hbang)
      · exact Or.inr (Or.inr (hmark hbang))

end ParseLine

/-! ### What is documented -/

/-- A domain as an adblock rule spells it. -/
def AdblockName (spelled : Text) : Prop := ∀ c ∈ spelled, c ≠ '^' ∧ c ≠ '$'

instance (spelled : Text) : Decidable (AdblockName spelled) := List.decidableBAll _ spelled

/-- Behind the domain of an adblock rule: nothing or a `^`, and then possibly `$` and options. -/
inductive AdblockEnd : Text → Prop
  | bare : AdblockEnd []
  | caret : AdblockEnd ['^']
  | options (options : Text) : AdblockEnd ('$' :: options)
  | caretOptions (options : Text) : AdblockEnd ('^' :: '$' :: options)

/-- A domain as the other lines spell it. -/
def PlainName (spelled : Text) : Prop := ∀ c ∈ spelled, isWhitespace c = false ∧ c ≠ '#'

instance (spelled : Text) : Decidable (PlainName spelled) := List.decidableBAll _ spelled

/-- Whitespace between two words. -/
structure Gap (gap : Text) : Prop where
  nonempty : gap ≠ []
  whitespace : ∀ c ∈ gap, isWhitespace c = true

variable [Lowercase]

/-- The spelling of a domain, up to letter case and trailing dots. -/
def Spells (spelled : Text) : Prop := validDomain (normalize spelled) = true

/-- A trimmed line and the rule it is documented to give. -/
inductive Documented : Text → Rule → Prop
  | block {spelled rest : Text} (hname : AdblockName spelled) (hspells : Spells spelled)
      (hend : AdblockEnd rest) :
      Documented (blockMark ++ (spelled ++ rest)) (.block (normalize spelled))
  | exception {spelled rest : Text} (hname : AdblockName spelled) (hspells : Spells spelled)
      (hend : AdblockEnd rest) :
      Documented (exceptionMark ++ (spelled ++ rest)) (.exception (normalize spelled))
  /-- An address, a domain, and then possibly more words or a comment. -/
  | hosts {ip gap spelled rest : Text} (hip : (IpAddr.parse ip).isSome) (hgap : Gap gap)
      (hname : PlainName spelled) (hspells : Spells spelled)
      (hrest : ∀ c ∈ rest.head?, isWhitespace c = true ∨ c = '#') :
      Documented (ip ++ (gap ++ (spelled ++ rest))) (.block (normalize spelled))
  | plain {spelled : Text} (hunmarked : Unmarked spelled) (hname : PlainName spelled)
      (hspells : Spells spelled) : Documented spelled (.block (normalize spelled))
  | commented {spelled gap comment : Text}
      (hunmarked : Unmarked (spelled ++ (gap ++ '#' :: comment))) (hname : PlainName spelled)
      (hspells : Spells spelled) (hgap : Gap gap) :
      Documented (spelled ++ (gap ++ '#' :: comment)) (.block (normalize spelled))

/-- The trimmed lines that are read as a rule for a domain although they are none: an adblock rule
that goes on behind its `^`, and a domain with a `#` directly behind it. -/
inductive Overread : Text → Prop
  | adblock {mark spelled rest : Text} {c : Char} (hmark : mark = blockMark ∨ mark = exceptionMark)
      (hname : AdblockName spelled) (hspells : Spells spelled) (hc : c ≠ '$') :
      Overread (mark ++ (spelled ++ '^' :: c :: rest))
  | hash {spelled rest : Text} (hunmarked : Unmarked (spelled ++ '#' :: rest))
      (hname : PlainName spelled) (hspells : Spells spelled) : Overread (spelled ++ '#' :: rest)

/-! ### Lines that are read as documented -/

omit [Lowercase] in
theorem adblockDomain_append {spelled rest : Text} (hname : AdblockName spelled)
    (hrest : ∀ c ∈ rest.head?, c = '^' ∨ c = '$') : adblockDomain (spelled ++ rest) = spelled := by
  refine takeWhile_append_of_head (fun c hc ↦ decide_eq_true (hname c hc)) fun c hc ↦ ?_
  exact decide_eq_false fun h ↦ (hrest c hc).elim h.1 h.2

omit [Lowercase] in
/-- An adblock rule is the domain that is read and what follows it. -/
theorem exists_adblock_split (rest : Text) : ∃ behind, rest = adblockDomain rest ++ behind ∧
    AdblockName (adblockDomain rest) ∧ ∀ c ∈ behind.head?, c = '^' ∨ c = '$' := by
  refine ⟨rest.dropWhile fun c ↦ c ≠ '^' ∧ c ≠ '$', List.takeWhile_append_dropWhile.symm,
    fun c hc ↦ of_decide_eq_true (forall_takeWhile rest c hc), fun c hc ↦ ?_⟩
  have hnot := of_decide_eq_false (forall_head?_dropWhile rest c hc)
  tauto

/-- An adblock rule that is read as a rule for a domain ends as documented, or is overread. -/
theorem adblockEnd_or_overread {mark rest : Text} (hmark : mark = blockMark ∨ mark = exceptionMark)
    (hspells : Spells (adblockDomain rest)) :
    (∃ behind, AdblockEnd behind ∧ rest = adblockDomain rest ++ behind ∧
      AdblockName (adblockDomain rest)) ∨ Overread (mark ++ rest) := by
  obtain ⟨behind, hrest, hname, hhead⟩ := exists_adblock_split rest
  rcases behind with - | ⟨d, behind⟩
  · exact Or.inl ⟨[], .bare, hrest, hname⟩
  rcases hhead d rfl with rfl | rfl
  · rcases behind with - | ⟨c, more⟩
    · exact Or.inl ⟨['^'], .caret, hrest, hname⟩
    · by_cases hc : c = '$'
      · subst hc
        exact Or.inl ⟨_, .caretOptions more, hrest, hname⟩
      · rw [hrest]
        exact Or.inr (.adblock hmark hname hspells hc)
  · exact Or.inl ⟨_, .options behind, hrest, hname⟩

omit [Lowercase] in
/-- Where the line is cut at a `#`. -/
theorem exists_beforeHash_append (line : Text) : ∃ tail, line = beforeHash line ++ tail ∧
    (∀ c ∈ tail.head?, c = '#') ∧ ∀ c ∈ beforeHash line, c ≠ '#' := by
  refine ⟨line.dropWhile fun c ↦ c ≠ '#', List.takeWhile_append_dropWhile.symm, fun c hc ↦ ?_,
    fun c hc ↦ of_decide_eq_true (forall_takeWhile line c hc)⟩
  exact not_not.1 (of_decide_eq_false (forall_head?_dropWhile line c hc))

omit [Lowercase] in
/-- The first word of a trimmed line begins the line. -/
theorem exists_first_word {raw first : Text} {more : List Text}
    (h : words isWhitespace (beforeHash raw.trim) = first :: more) : ∃ after tail,
      raw.trim = first ++ (after ++ tail) ∧ PlainName first ∧ words isWhitespace after = more ∧
      (∀ c ∈ after.head?, isWhitespace c = true) ∧ (∀ c ∈ after, c ≠ '#') ∧
      ∀ c ∈ tail.head?, c = '#' := by
  obtain ⟨tail, hline, htail, hnohash⟩ := exists_beforeHash_append raw.trim
  obtain ⟨before, after, hleads, hmore⟩ := words_eq_cons_iff.1 h
  rw [hleads.eq, List.forall_mem_append, List.forall_mem_append] at hnohash
  have hbefore : before = [] := by
    rcases before with - | ⟨c, before⟩
    · rfl
    · have hc : isWhitespace c = false := by
        refine head?_strip raw c ?_
        rw [← Text.trim_eq_strip, hline, hleads.eq]
        rfl
      rw [hleads.breaks c List.mem_cons_self] at hc
      cases hc
  subst hbefore
  refine ⟨after, tail, ?_, fun c hc ↦ ⟨hleads.unbroken c hc, hnohash.2.1 c hc⟩, hmore, hleads.ends,
    hnohash.2.2, htail⟩
  nth_rewrite 1 [hline]
  rw [hleads.eq, List.nil_append, List.append_assoc]

/-- A hosts line is read as documented. -/
theorem documented_hosts {raw first second : Text} {more : List Text}
    (h : words isWhitespace (beforeHash raw.trim) = first :: second :: more)
    (hip : (IpAddr.parse first).isSome) (hspells : Spells second) :
    Documented raw.trim (.block (normalize second)) := by
  obtain ⟨after, tail, hline, -, hmore, hends, hnohash, htail⟩ := exists_first_word h
  obtain ⟨gap, after', hleads, -⟩ := words_eq_cons_iff.1 hmore
  have hgap : Gap gap := by
    refine ⟨?_, hleads.breaks⟩
    rintro rfl
    -- without a gap the second word would begin with the break that ends the first
    obtain ⟨c, word, rfl⟩ := List.exists_cons_of_ne_nil hleads.nonempty
    have hbreak := hends c (by rw [hleads.eq]; rfl)
    rw [hleads.unbroken c List.mem_cons_self] at hbreak
    cases hbreak
  rw [hleads.eq, List.forall_mem_append, List.forall_mem_append] at hnohash
  rw [hline, hleads.eq, List.append_assoc, List.append_assoc]
  refine .hosts hip hgap (fun c hc ↦ ⟨hleads.unbroken c hc, hnohash.2.1 c hc⟩) hspells fun c hc ↦ ?_
  rcases after' with - | ⟨d, after'⟩
  · exact Or.inr (htail c hc)
  · exact Or.inl (Option.some.inj hc ▸ hleads.ends d rfl)

/-- A plain domain is read as documented, or overread. -/
theorem documented_plain {raw first : Text} (hunmarked : Unmarked raw.trim)
    (h : words isWhitespace (beforeHash raw.trim) = [first]) (hspells : Spells first) :
    Documented raw.trim (.block (normalize first)) ∨ Overread raw.trim := by
  obtain ⟨after, tail, hline, hname, hmore, -, -, htail⟩ := exists_first_word h
  have hafter := forall_of_words_eq_nil hmore
  rcases tail with - | ⟨c, comment⟩
  · -- nothing follows: a trimmed line does not end with whitespace
    have hnil : after = [] := by
      by_contra hne
      have hlast : isWhitespace (after.getLast hne) = false := by
        refine getLast?_strip raw _ ?_
        rw [← Text.trim_eq_strip, hline, List.append_nil, List.getLast?_append_of_ne_nil _ hne]
        exact List.getLast?_eq_getLast_of_ne_nil hne
      rw [hafter _ (List.getLast_mem hne)] at hlast
      cases hlast
    rw [hnil, List.append_nil, List.append_nil] at hline
    rw [hline] at hunmarked ⊢
    exact Or.inl (.plain hunmarked hname hspells)
  · obtain rfl : c = '#' := htail c rfl
    rcases after with - | ⟨d, after⟩
    · rw [List.nil_append] at hline
      rw [hline] at hunmarked ⊢
      exact Or.inr (.hash hunmarked hname hspells)
    · rw [hline] at hunmarked ⊢
      exact Or.inl (.commented hunmarked hname hspells ⟨List.cons_ne_nil _ _, hafter⟩)

/-- **What a line that is not overread says is documented.** -/
theorem documented_of_parseLine {raw : Text} {rule : Rule} (h : parseLine raw = some rule)
    (hnot : ¬Overread raw.trim) : Documented raw.trim rule := by
  rcases parseLine_cases h with ⟨rest, hline, hrule⟩ | ⟨rest, hline, hrule⟩ |
    ⟨-, first, second, more, hwords, hip, hrule⟩ | ⟨hunmarked, first, hwords, hrule⟩
  · obtain ⟨hspells, rfl⟩ := ruleFor_eq_some.1 hrule
    rw [hline] at hnot ⊢
    obtain ⟨behind, hend, hrest, hname⟩ :=
      (adblockEnd_or_overread (Or.inr rfl) hspells).resolve_right hnot
    nth_rewrite 1 [hrest]
    exact .exception hname hspells hend
  · obtain ⟨hspells, rfl⟩ := ruleFor_eq_some.1 hrule
    rw [hline] at hnot ⊢
    obtain ⟨behind, hend, hrest, hname⟩ :=
      (adblockEnd_or_overread (Or.inl rfl) hspells).resolve_right hnot
    nth_rewrite 1 [hrest]
    exact .block hname hspells hend
  · obtain ⟨hspells, rfl⟩ := ruleFor_eq_some.1 hrule
    exact documented_hosts hwords hip hspells
  · obtain ⟨hspells, rfl⟩ := ruleFor_eq_some.1 hrule
    exact (documented_plain hunmarked hwords hspells).resolve_right hnot

/-! ### Lines that are overread -/

omit [Lowercase] in
theorem AdblockEnd.head {rest : Text} (h : AdblockEnd rest) :
    ∀ c ∈ rest.head?, c = '^' ∨ c = '$' := by
  cases h <;> simp

omit [Lowercase] in
/-- The end of an adblock rule is determined by the rule. -/
theorem AdblockEnd.not_caret {spelled spelled' rest rest' : Text} {c : Char}
    (hend : AdblockEnd rest') (hname : AdblockName spelled) (hname' : AdblockName spelled')
    (hc : c ≠ '$') (h : spelled ++ '^' :: c :: rest = spelled' ++ rest') : False := by
  have hdomain := congrArg adblockDomain h
  rw [adblockDomain_append hname (by simp), adblockDomain_append hname' hend.head] at hdomain
  rw [hdomain, List.append_cancel_left_eq] at h
  subst h
  cases hend
  exact hc rfl

omit [Lowercase] in
/-- The first character of a line decides whether it has a mark. -/
theorem unmarked_of_head {line : Text} (h : ∀ c ∈ line.head?, c ∉ ['!', '#', '@', '|']) :
    Unmarked line := by
  refine ⟨fun c hc ↦ ⟨?_, ?_⟩, ?_, ?_⟩
  · rintro rfl
    exact h '!' hc (by decide)
  · rintro rfl
    exact h '#' hc (by decide)
  · rintro ⟨rest, rfl⟩
    exact h '@' rfl (by decide)
  · rintro ⟨rest, rfl⟩
    exact h '|' rfl (by decide)

omit [Lowercase] in
/-- A line that begins with an address has no mark. -/
theorem IpAddr.unmarked {ip : Text} (h : (IpAddr.parse ip).isSome) (rest : Text) :
    Unmarked (ip ++ rest) := by
  have hall := IpAddr.forall_isAddressChar h
  rcases ip with - | ⟨c, ip⟩
  · cases h
  refine unmarked_of_head fun d hd hmark ↦ ?_
  obtain rfl : c = d := Option.some.inj hd
  have hnat := (hall c List.mem_cons_self).toNat
  simp only [List.mem_cons, List.not_mem_nil, or_false] at hmark
  rcases hmark with rfl | rfl | rfl | rfl <;> revert hnat <;> decide

omit [Lowercase] in
theorem IpAddr.plainName {ip : Text} (h : (IpAddr.parse ip).isSome) : PlainName ip := by
  intro c hc
  have hnat := (IpAddr.forall_isAddressChar h c hc).toNat
  refine ⟨?_, ?_⟩
  · simp only [isWhitespace, Bool.or_eq_false_iff, Bool.and_eq_false_iff, decide_eq_false_iff_not,
      beq_eq_false_iff_ne]
    omega
  · rintro rfl
    revert hnat
    decide

omit [Lowercase] in
/-- A name with a `#` directly behind it has no gap behind it. -/
theorem PlainName.not_gap {spelled spelled' gap rest rest' : Text} (hname : PlainName spelled)
    (hname' : PlainName spelled') (hgap : Gap gap)
    (h : spelled ++ '#' :: rest = spelled' ++ (gap ++ rest')) : False := by
  obtain ⟨d, gap, rfl⟩ := List.exists_cons_of_ne_nil hgap.nonempty
  have hd := hgap.whitespace d List.mem_cons_self
  have hstop := congrArg (List.takeWhile fun c ↦ !isWhitespace c && c ≠ '#') h
  rw [takeWhile_append_of_head (fun c hc ↦ by simp [hname c hc]) (by simp),
    takeWhile_append_of_head (fun c hc ↦ by simp [hname' c hc]) (by simp [hd])] at hstop
  rw [hstop, List.append_cancel_left_eq, List.cons_append, List.cons.injEq] at h
  rw [← h.1] at hd
  revert hd
  decide

/-- **An overread line is not documented.** -/
theorem Overread.not_documented {line : Text} (h : Overread line) (rule : Rule) :
    ¬Documented line rule := by
  intro hdoc
  cases h with
  | @adblock mark spelled rest c hmark hname hspells hc =>
    generalize hline : mark ++ (spelled ++ '^' :: c :: rest) = line at hdoc
    have hmarked : blockMark <+: line ∨ exceptionMark <+: line := by
      rw [← hline]
      rcases hmark with rfl | rfl
      · exact Or.inl (List.prefix_append _ _)
      · exact Or.inr (List.prefix_append _ _)
    cases hdoc with
    | block hname' _ hend =>
      rcases hmark with rfl | rfl
      · exact hend.not_caret hname hname' hc (List.append_cancel_left hline)
      · simp [exceptionMark, blockMark] at hline
    | exception hname' _ hend =>
      rcases hmark with rfl | rfl
      · simp [exceptionMark, blockMark] at hline
      · exact hend.not_caret hname hname' hc (List.append_cancel_left hline)
    | hosts hip =>
      have hunmarked := IpAddr.unmarked hip
      exact hmarked.elim (hunmarked _).notBlock (hunmarked _).notException
    | plain hunmarked => exact hmarked.elim hunmarked.notBlock hunmarked.notException
    | commented hunmarked => exact hmarked.elim hunmarked.notBlock hunmarked.notException
  | @hash spelled rest hunmarked hname hspells =>
    generalize hline : spelled ++ '#' :: rest = line at hdoc hunmarked
    cases hdoc with
    | block => exact hunmarked.notBlock (List.prefix_append _ _)
    | exception => exact hunmarked.notException (List.prefix_append _ _)
    | hosts hip hgap => exact hname.not_gap (IpAddr.plainName hip) hgap hline
    | plain _ hplain => exact (hplain '#' (by simp [← hline])).2 rfl
    | commented _ hplain _ hgap => exact hname.not_gap hplain hgap hline

omit [Lowercase] in
theorem Gap.ne_hash {gap : Text} (h : Gap gap) : ∀ c ∈ gap, c ≠ '#' := by
  rintro c hc rfl
  have hspace := h.whitespace _ hc
  revert hspace
  decide

omit [Lowercase] in
/-- The part of a line before its first `#`. -/
theorem beforeHash_append {before rest : Text} (hbefore : ∀ c ∈ before, c ≠ '#')
    (hrest : ∀ c ∈ rest.head?, c = '#') : beforeHash (before ++ rest) = before :=
  takeWhile_append_of_head (fun c hc ↦ decide_eq_true (hbefore c hc))
    fun c hc ↦ decide_eq_false (not_not.2 (hrest c hc))

theorem Spells.ne_nil {spelled : Text} (h : Spells spelled) : spelled ≠ [] := by
  rintro rfl
  rw [Spells, normalize, List.rdropWhile_nil, Lowercase.toLowercase_ascii [] (by simp)] at h
  cases h

/-- An unmarked line of one word is a rule for the word. -/
theorem parseLine_of_word {raw spelled : Text} (hunmarked : Unmarked raw.trim)
    (hwords : words isWhitespace (beforeHash raw.trim) = [spelled]) (hspells : Spells spelled) :
    parseLine raw = some (.block (normalize spelled)) := by
  rw [parseLine_of_unmarked hunmarked, hwords]
  exact ruleFor_eq_some.2 ⟨hspells, rfl⟩

/-- A hosts line is a rule for its second word. -/
theorem parseLine_of_hosts {raw ip gap spelled rest : Text}
    (hline : raw.trim = ip ++ (gap ++ (spelled ++ rest))) (hip : (IpAddr.parse ip).isSome)
    (hgap : Gap gap) (hname : PlainName spelled) (hspells : Spells spelled)
    (hrest : ∀ c ∈ rest.head?, isWhitespace c = true ∨ c = '#') :
    parseLine raw = some (.block (normalize spelled)) := by
  have hunmarked : Unmarked raw.trim := hline ▸ IpAddr.unmarked hip _
  have hne : ip ≠ [] := by
    rintro rfl
    cases hip
  -- the comment, if there is one, begins behind the domain
  obtain ⟨tail, hsplit, htail, hnohash⟩ := exists_beforeHash_append rest
  have hbefore : beforeHash raw.trim = ip ++ (gap ++ (spelled ++ beforeHash rest)) := by
    rw [hline]
    nth_rewrite 1 [hsplit]
    rw [← List.append_assoc spelled, ← List.append_assoc gap, ← List.append_assoc ip]
    refine beforeHash_append ?_ htail
    simp only [List.forall_mem_append]
    exact ⟨fun c hc ↦ (IpAddr.plainName hip c hc).2, hgap.ne_hash, fun c hc ↦ (hname c hc).2,
      hnohash⟩
  have hhead : ∀ c ∈ (beforeHash rest).head?, isWhitespace c = true := by
    intro c hc
    have hmem := List.mem_of_mem_head? hc
    have hrest' : rest.head? = some c := by rw [hsplit, List.head?_append, hc, Option.some_or]
    exact (hrest c hrest').resolve_right (hnohash c hmem)
  have hsecond : words isWhitespace (gap ++ (spelled ++ beforeHash rest)) =
      spelled :: words isWhitespace (beforeHash rest) :=
    Leads.words_eq ⟨rfl, hgap.whitespace, hspells.ne_nil, fun c hc ↦ (hname c hc).1, hhead⟩
  have hfirst : words isWhitespace (beforeHash raw.trim) =
      ip :: words isWhitespace (gap ++ (spelled ++ beforeHash rest)) := by
    refine @Leads.words_eq _ _ _ [] _ _ ⟨hbefore, by simp, hne,
      fun c hc ↦ (IpAddr.plainName hip c hc).1, fun c hc ↦ ?_⟩
    obtain ⟨d, gap, rfl⟩ := List.exists_cons_of_ne_nil hgap.nonempty
    exact Option.some.inj hc ▸ hgap.whitespace d List.mem_cons_self
  rw [parseLine_of_unmarked hunmarked, hfirst, hsecond]
  simp only [hip, if_true]
  exact ruleFor_eq_some.2 ⟨hspells, rfl⟩

/-- **What is documented is read.** -/
theorem Documented.parseLine_eq {raw : Text} {rule : Rule} (h : Documented raw.trim rule) :
    parseLine raw = some rule := by
  generalize hline : raw.trim = line at h
  cases h with
  | block hname hspells hend =>
    rw [parseLine_of_block hline, adblockDomain_append hname hend.head]
    exact ruleFor_eq_some.2 ⟨hspells, rfl⟩
  | exception hname hspells hend =>
    rw [parseLine_of_exception hline, adblockDomain_append hname hend.head]
    exact ruleFor_eq_some.2 ⟨hspells, rfl⟩
  | hosts hip hgap hname hspells hrest =>
    exact parseLine_of_hosts hline hip hgap hname hspells hrest
  | plain hunmarked hname hspells =>
    have hbefore := @beforeHash_append line [] (fun c hc ↦ (hname c hc).2) (by simp)
    rw [List.append_nil] at hbefore
    refine parseLine_of_word (hline ▸ hunmarked) ?_ hspells
    rw [hline, hbefore]
    exact words_of_unbroken hspells.ne_nil fun c hc ↦ (hname c hc).1
  | @commented spelled gap comment hunmarked hname hspells hgap =>
    have hbefore : beforeHash (spelled ++ (gap ++ '#' :: comment)) = spelled ++ gap := by
      rw [← List.append_assoc]
      refine beforeHash_append ?_ (by simp)
      rw [List.forall_mem_append]
      exact ⟨fun c hc ↦ (hname c hc).2, hgap.ne_hash⟩
    refine parseLine_of_word (hline ▸ hunmarked) ?_ hspells
    rw [hline, hbefore, words_append_breaks hgap.whitespace]
    exact words_of_unbroken hspells.ne_nil fun c hc ↦ (hname c hc).1

/-- **An overread line gives a rule.** -/
theorem Overread.exists_parseLine {raw : Text} (h : Overread raw.trim) :
    ∃ rule, parseLine raw = some rule := by
  generalize hline : raw.trim = line at h
  cases h with
  | @adblock mark spelled rest c hmark hname hspells hc =>
    have hdomain : adblockDomain (spelled ++ '^' :: c :: rest) = spelled :=
      adblockDomain_append hname (by simp)
    rcases hmark with rfl | rfl
    · refine ⟨_, (parseLine_of_block hline).trans (ruleFor_eq_some.2 ⟨?_, rfl⟩)⟩
      rwa [hdomain]
    · refine ⟨_, (parseLine_of_exception hline).trans (ruleFor_eq_some.2 ⟨?_, rfl⟩)⟩
      rwa [hdomain]
  | @hash spelled rest hunmarked hname hspells =>
    have hbefore : beforeHash raw.trim = spelled := by
      rw [hline]
      exact beforeHash_append (fun c hc ↦ (hname c hc).2) (by simp)
    refine ⟨_, parseLine_of_word (hline ▸ hunmarked) ?_ hspells⟩
    rw [hbefore]
    exact words_of_unbroken hspells.ne_nil fun c hc ↦ (hname c hc).1

/-! ### Texts -/

/-- A rule is in the set of a text if some line says it. -/
theorem has_parseRules {text : Text} {rule : Rule} :
    (parseRules text).Has rule ↔ ∃ raw ∈ Text.lines text, parseLine raw = some rule := by
  have hfold : ∀ (lines : List Text) (set : RuleSet),
      (lines.foldl (fun set raw ↦ ((parseLine raw).map set.add).getD set) set).Has rule ↔
        set.Has rule ∨ ∃ raw ∈ lines, parseLine raw = some rule := by
    intro lines
    induction lines with
    | nil => simp
    | cons raw lines ih =>
      intro set
      rw [List.foldl_cons, ih, List.exists_mem_cons_iff, ← or_assoc]
      refine or_congr_left ?_
      rcases parseLine raw with - | rule'
      · simp
      · rw [Option.map_some, Option.getD_some, RuleSet.has_add, or_comm, Option.some.injEq, eq_comm]
  rw [parseRules, hfold, or_iff_right (RuleSet.has_empty rule)]

/-- **Which texts are read by the grammar**: rules come from lines that document them, and all other
lines contribute nothing, exactly if no line is overread. -/
theorem reads_grammar_iff (text : Text) :
    ((∀ rule, (parseRules text).Has rule → ∃ raw ∈ Text.lines text, Documented raw.trim rule) ∧
      ∀ raw ∈ Text.lines text, (∀ rule, ¬Documented raw.trim rule) → parseLine raw = none) ↔
    ∀ raw ∈ Text.lines text, ¬Overread raw.trim := by
  constructor
  · rintro ⟨-, hnothing⟩ raw hraw hover
    obtain ⟨rule, hrule⟩ := hover.exists_parseLine
    rw [hnothing raw hraw hover.not_documented] at hrule
    cases hrule
  · intro hnone
    refine ⟨fun rule hrule ↦ ?_, fun raw hraw hother ↦ ?_⟩
    · obtain ⟨raw, hraw, hparse⟩ := has_parseRules.1 hrule
      exact ⟨raw, hraw, documented_of_parseLine hparse (hnone raw hraw)⟩
    · rw [Option.eq_none_iff_forall_ne_some]
      intro rule hparse
      exact hother rule (documented_of_parseLine hparse (hnone raw hraw))

omit [Lowercase] in
/-- A cosmetic filter for the elements of a site blocks the site, and so does a path rule. -/
theorem cosmetic_filter_blocks :
    let _lowercase := asciiLowercase
    let site := "site.example".toList
    ∀ line ∈ ["site.example##.banner".toList, "||site.example^*/ad.js".toList],
      Text.lines line = [line] ∧ (parseRules line).Has (.block site) ∧
        ¬∃ raw ∈ Text.lines line, Documented raw.trim (.block site) := by
  intro _lowercase site
  have hspells : Spells site := by
    rw [Spells]
    decide
  have hcosmetic : Overread (site ++ '#' :: "#.banner".toList) := by
    refine .hash ⟨?_, by decide, by decide⟩ (by decide) hspells
    intro c hc
    obtain rfl : 's' = c := Option.some.inj hc
    decide
  have hpath : Overread (blockMark ++ (site ++ '^' :: '*' :: "/ad.js".toList)) :=
    .adblock (Or.inl rfl) (by decide) hspells (by decide)
  have hnone : ∀ {line : Text}, Text.lines line = [line] → Overread line.trim →
      ¬∃ raw ∈ Text.lines line, Documented raw.trim (.block site) := by
    rintro line hlines hover ⟨raw, hraw, hdoc⟩
    rw [hlines, List.mem_singleton] at hraw
    subst hraw
    exact hover.not_documented _ hdoc
  rw [List.forall_mem_cons, List.forall_mem_singleton]
  exact ⟨⟨rfl, has_parseRules.2 ⟨_, List.mem_singleton_self _, rfl⟩, hnone rfl hcosmetic⟩,
    rfl, has_parseRules.2 ⟨_, List.mem_singleton_self _, rfl⟩, hnone rfl hpath⟩

end DnsBuffer
