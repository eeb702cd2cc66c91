import DnsBuffer.Filter.Verdict
import Mathlib.Logic.Equiv.Defs

/-!
# Loading is a homomorphism

The rule set of a text is the set of what its lines say, wherever the lines stand and however often
they do (`has_parseRules_iff`). So a text that is two texts with a newline between them gives the
union of their rule sets, and what `load_sources` merges is the rule set of the loaded texts put one
below the other, in any order (`loadSources_eq_parseRules`).

The verdict grows with the blocked domains and shrinks with the exceptions (`isBlocked_mono`).
-/

namespace DnsBuffer

open Words

namespace RuleSet

theorem merge_assoc (r s t : RuleSet) : (r.merge s).merge t = r.merge (s.merge t) :=
  eq_iff_has.2 fun rule ↦ by simp only [has_merge, or_assoc]

theorem merge_comm (r s : RuleSet) : r.merge s = s.merge r :=
  eq_iff_has.2 fun rule ↦ by rw [has_merge, has_merge, or_comm]

theorem merge_self (r : RuleSet) : r.merge r = r :=
  eq_iff_has.2 fun rule ↦ by rw [has_merge, or_self]

end RuleSet

variable [Lowercase]

/-! ### Lines -/

/-- Only the trimmed line matters, so a carriage return at its end does not. -/
theorem parseLine_concat_cr (line : Text) : parseLine (line ++ ['\r']) = parseLine line := by
  have htrim : Text.trim (line ++ ['\r']) = Text.trim line := strip_concat (by decide) line
  rw [parseLine, htrim, parseLine]

theorem parseLine_nil : parseLine [] = none := rfl

/-- **The rules of a text** are what the stretches between its newlines say. -/
theorem has_parseRules_iff {text : Text} {rule : Rule} :
    (parseRules text).Has rule ↔ ∃ part ∈ text.splitOn '\n', parseLine part = some rule := by
  have hstrip : ∀ part : Text,
      parseLine (if part.getLast? = some '\r' then part.dropLast else part) = parseLine part := by
    intro part
    split
    · rename_i hcr
      obtain ⟨part, rfl⟩ := List.getLast?_eq_some_iff.1 hcr
      rw [List.dropLast_concat, parseLine_concat_cr]
    · rfl
  -- what `lines` drops behind the last newline is at most an empty line
  have hlast : ∀ part : Text, (∃ raw ∈ (some part |>.filter fun l ↦ l ≠ []).toList,
      parseLine raw = some rule) ↔ parseLine part = some rule := by
    intro part
    rcases part with - | ⟨c, part⟩
    · simp [parseLine_nil]
    · simp
  have hne : text.splitOn '\n' ≠ [] := List.splitOn_ne_nil _ _
  have hparts : (text.splitOn '\n').dropLast ++ [(text.splitOn '\n').getLast hne] =
      text.splitOn '\n' := List.dropLast_append_getLast hne
  rw [has_parseRules, Text.lines, List.getLast?_eq_getLast_of_ne_nil hne]
  conv_rhs => rw [← hparts]
  simp only [List.mem_append, or_and_right, exists_or, hlast, List.mem_map,
    exists_exists_and_eq_and, hstrip, List.mem_singleton, exists_eq_left]

/-- **Two texts with a newline between them.** -/
theorem parseRules_append_newline (a b : Text) :
    parseRules (a ++ '\n' :: b) = (parseRules a).merge (parseRules b) := by
  refine RuleSet.eq_iff_has.2 fun rule ↦ ?_
  rw [RuleSet.has_merge, has_parseRules_iff, has_parseRules_iff, has_parseRules_iff,
    List.splitOn_append_cons_self]
  simp only [List.mem_append, or_and_right, exists_or]

/-- Any number of texts, one below the other. -/
theorem has_parseRules_intercalate {texts : List Text} {rule : Rule} :
    (parseRules (['\n'].intercalate texts)).Has rule ↔ ∃ t ∈ texts, (parseRules t).Has rule := by
  induction texts with
  | nil =>
    refine iff_of_false ?_ (by simp)
    rw [List.intercalate_nil]
    exact RuleSet.has_empty rule
  | cons t texts ih =>
    rcases texts with - | ⟨t', texts⟩
    · simp
    · rw [List.intercalate_cons_cons, List.append_assoc, List.singleton_append,
        parseRules_append_newline, RuleSet.has_merge, ih, List.exists_mem_cons_iff _ t]

/-- A text is read as the set of its lines. -/
theorem parseRules_eq_of_lines {a b : Text}
    (h : ∀ raw, raw ∈ Text.lines a ↔ raw ∈ Text.lines b) : parseRules a = parseRules b :=
  RuleSet.eq_iff_has.2 fun rule ↦ by simp only [has_parseRules, h]

/-! ### Sources -/

/-- The texts of the sources that load, in their order. -/
def loadedTexts (sources : List RuleSource) (io : ℕ → SourceIo) : List Text :=
  sources.zipIdx.filterMap fun (s, i) ↦ s.text (io i)

omit [Lowercase] in
theorem mem_loadedTexts {sources : List RuleSource} {io : ℕ → SourceIo} {t : Text} :
    t ∈ loadedTexts sources io ↔
      ∃ i, ∃ s : RuleSource, sources[i]? = some s ∧ s.text (io i) = some t := by
  rw [loadedTexts, List.mem_filterMap]
  constructor
  · rintro ⟨⟨s, i⟩, hmem, htext⟩
    exact ⟨i, s, List.mem_zipIdx_iff_getElem?.1 hmem, htext⟩
  · rintro ⟨i, s, hs, htext⟩
    exact ⟨(s, i), List.mem_zipIdx_iff_getElem?.2 hs, htext⟩

/-- A loaded rule is one of a loaded text. -/
theorem has_loadSources_iff {sources : List RuleSource} {io : ℕ → SourceIo} {rule : Rule} :
    (loadSources sources io).Has rule ↔ ∃ t ∈ loadedTexts sources io, (parseRules t).Has rule := by
  rw [has_loadSources]
  constructor
  · rintro ⟨i, r, hr, hrule⟩
    rw [delivered, Option.bind_eq_some_iff] at hr
    obtain ⟨s, hs, hr⟩ := hr
    obtain ⟨t, ht, rfl⟩ := Option.map_eq_some_iff.1 hr
    exact ⟨t, mem_loadedTexts.2 ⟨i, s, hs, ht⟩, hrule⟩
  · rintro ⟨t, ht, hrule⟩
    obtain ⟨i, s, hs, htext⟩ := mem_loadedTexts.1 ht
    refine ⟨i, parseRules t, ?_, hrule⟩
    rw [delivered, hs, Option.bind_some, htext, Option.map_some]

/-- **What is loaded** is what the loaded texts say, put one below the other in any order and with
any repetition. -/
theorem loadSources_eq_parseRules {sources : List RuleSource} {io : ℕ → SourceIo}
    {texts : List Text} (h : ∀ t, t ∈ texts ↔ t ∈ loadedTexts sources io) :
    loadSources sources io = parseRules (['\n'].intercalate texts) :=
  RuleSet.eq_iff_has.2 fun rule ↦ by
    simp only [has_loadSources_iff, has_parseRules_intercalate, h]

/-- The sources in another order, each with what it delivers. -/
theorem loadSources_reorder {sources sources' : List RuleSource} (io : ℕ → SourceIo)
    (σ : Equiv.Perm ℕ) (h : ∀ i, sources'[i]? = sources[σ i]?) :
    loadSources sources' (fun i ↦ io (σ i)) = loadSources sources io := by
  have hdelivered : ∀ i, delivered sources' (fun i ↦ io (σ i)) i = delivered sources io (σ i) := by
    intro i
    rw [delivered, delivered, h]
  refine RuleSet.eq_iff_has.2 fun rule ↦ ?_
  simp only [has_loadSources, hdelivered]
  exact σ.exists_congr_left.trans (by simp)

/-! ### The verdict -/

/-- **More blocked domains and fewer exceptions block more.** -/
theorem isBlocked_mono (f : Filter) {r r' : RuleSet} (hblocked : r.blocked ⊆ r'.blocked)
    (hexceptions : r'.exceptions ⊆ r.exceptions) {name : Text}
    (h : (f.store r).isBlocked name = true) : (f.store r').isBlocked name = true := by
  obtain ⟨⟨b, hb, hsuffix⟩, hallow, hexcept⟩ := ((f.store r).isBlocked_iff name).1 h
  exact ((f.store r').isBlocked_iff name).2
    ⟨⟨b, hblocked hb, hsuffix⟩, hallow, fun e he ↦ hexcept e (hexceptions he)⟩

/-- A line of exception form gives no block. -/
theorem not_block_of_exceptionMark {line domain : Text} (h : exceptionMark <+: line.trim) :
    parseLine line ≠ some (.block domain) := by
  obtain ⟨rest, hrest⟩ := h
  rw [parseLine_of_exception hrest.symm]
  intro hrule
  cases (ruleFor_eq_some.1 hrule).2

/-- A line of another form gives no exception. -/
theorem not_exception_of_no_mark {line domain : Text} (h : ¬exceptionMark <+: line.trim) :
    parseLine line ≠ some (.exception domain) := by
  intro hrule
  rcases parseLine_cases hrule with ⟨rest, hline, -⟩ | ⟨_, -, hrule⟩ | ⟨-, _, _, _, -, -, hrule⟩ |
    ⟨-, _, -, hrule⟩
  · exact h ⟨rest, hline.symm⟩
  · cases (ruleFor_eq_some.1 hrule).2
  · cases (ruleFor_eq_some.1 hrule).2
  · cases (ruleFor_eq_some.1 hrule).2

/-- The lines of a text and one more, wherever it stands. -/
def AddsLine (line text text' : Text) : Prop :=
  ∀ raw, raw ∈ Text.lines text' ↔ raw = line ∨ raw ∈ Text.lines text

theorem AddsLine.has_iff {line text text' : Text} (h : AddsLine line text text') (rule : Rule) :
    (parseRules text').Has rule ↔ parseLine line = some rule ∨ (parseRules text).Has rule := by
  simp only [has_parseRules, h _, or_and_right, exists_or, exists_eq_left]

/-- **Loading is a homomorphism and order does not matter.** The rules of a text are the merged
rules of its parts, and merging is a semilattice operation; so what `load_sources` gives depends
only on the set of texts that load, and the verdict neither on the order of the sources nor on that
of the lines. An exception line never makes a name blocked, and any other line never unblocks
one. -/
theorem loading_homomorphism :
    (∀ a b : Text, parseRules (a ++ '\n' :: b) = (parseRules a).merge (parseRules b)) ∧
    (∀ r s t : RuleSet, (r.merge s).merge t = r.merge (s.merge t) ∧ r.merge s = s.merge r ∧
      r.merge r = r) ∧
    (∀ (sources : List RuleSource) (io : ℕ → SourceIo) (texts : List Text),
      (∀ t, t ∈ texts ↔ t ∈ loadedTexts sources io) →
      loadSources sources io = parseRules (['\n'].intercalate texts)) ∧
    (∀ (sources sources' : List RuleSource) (io : ℕ → SourceIo) (σ : Equiv.Perm ℕ),
      (∀ i, sources'[i]? = sources[σ i]?) → ∀ (f : Filter) (name : Text),
      (f.store (loadSources sources' fun i ↦ io (σ i))).isBlocked name =
        (f.store (loadSources sources io)).isBlocked name) ∧
    (∀ a b : Text, (∀ raw, raw ∈ Text.lines a ↔ raw ∈ Text.lines b) →
      ∀ (f : Filter) (name : Text),
      (f.store (parseRules a)).isBlocked name = (f.store (parseRules b)).isBlocked name) ∧
    ∀ line text text' : Text, AddsLine line text text' → ∀ (f : Filter) (name : Text),
      (exceptionMark <+: line.trim → (f.store (parseRules text')).isBlocked name = true →
        (f.store (parseRules text)).isBlocked name = true) ∧
      (¬exceptionMark <+: line.trim → (f.store (parseRules text)).isBlocked name = true →
        (f.store (parseRules text')).isBlocked name = true) := by
  refine ⟨parseRules_append_newline,
    fun r s t ↦ ⟨r.merge_assoc s t, r.merge_comm s, r.merge_self⟩,
    fun sources io texts ↦ loadSources_eq_parseRules, ?_, ?_, ?_⟩
  · intro sources sources' io σ hσ f name
    rw [loadSources_reorder io σ hσ]
  · intro a b hlines f name
    rw [parseRules_eq_of_lines hlines]
  · intro line text text' hadds f name
    refine ⟨fun hmark ↦ isBlocked_mono f (fun d hd ↦ ?_) fun e he ↦ ?_,
      fun hmark ↦ isBlocked_mono f (fun d hd ↦ ?_) fun e he ↦ ?_⟩
    · exact ((hadds.has_iff (.block d)).1 hd).resolve_left (not_block_of_exceptionMark hmark)
    · exact (hadds.has_iff (.exception e)).2 (Or.inr he)
    · exact (hadds.has_iff (.block d)).2 (Or.inr hd)
    · exact ((hadds.has_iff (.exception e)).1 he).resolve_left (not_exception_of_no_mark hmark)

end DnsBuffer
