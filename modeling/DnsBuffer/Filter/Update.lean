import DnsBuffer.Filter.Model
import DnsBuffer.Foundation.Machine
import Mathlib.Data.List.Basic

/-!
# Loading and refreshing the rules

`load_sources` merges the rules of every source it can read; `build_pipeline` stores the result once
at startup, and the task of `spawn_updater` repeats the load at the smallest configured interval and
stores the result *unless it has no blocked entry*.

What a source delivers in a cycle is the environment's choice (`SourceIo`). Beside the filter the
state remembers, for the specification only, the rules of the most recent successful load of each
source (`lastGood`). The specification is that the rules in force are their union (`Retained`).

The code decides once for the merged set whether to keep the old one, so the specification fails
when a source drops out while others deliver. `refresh_retains_iff` says exactly when one cycle is
in order, and `rules_retained_iff` lifts that to every sequence of cycles.
-/

namespace DnsBuffer

/-! ### Rule sets as sets of rules -/

namespace RuleSet

/-- The set contains the rule. -/
def Has (r : RuleSet) : Rule → Prop
  | .block domain => domain ∈ r.blocked
  | .exception domain => domain ∈ r.exceptions

theorem eq_iff_has {r r' : RuleSet} : r = r' ↔ ∀ rule, r.Has rule ↔ r'.Has rule :=
  ⟨fun h rule ↦ by rw [h], fun h ↦
    RuleSet.ext (Finset.ext fun d ↦ h (.block d)) (Finset.ext fun d ↦ h (.exception d))⟩

@[simp] theorem has_empty (rule : Rule) : ¬empty.Has rule := by
  cases rule <;> simp [Has, empty]

@[simp] theorem has_merge (r r' : RuleSet) (rule : Rule) :
    (r.merge r').Has rule ↔ r.Has rule ∨ r'.Has rule := by
  cases rule <;> simp [Has, merge]

theorem has_add (r : RuleSet) (rule rule' : Rule) :
    (r.add rule').Has rule ↔ rule = rule' ∨ r.Has rule := by
  cases rule <;> cases rule' <;> simp [Has, add]

/-- The union of the rule sets of the first `n` sources. -/
def unionOf (n : ℕ) (f : ℕ → RuleSet) : RuleSet :=
  (List.range n).foldl (fun r i ↦ r.merge (f i)) empty

theorem has_foldl_merge {ι : Type*} (f : ι → RuleSet) (is : List ι) (r : RuleSet) (rule : Rule) :
    (is.foldl (fun r i ↦ r.merge (f i)) r).Has rule ↔
      r.Has rule ∨ ∃ i ∈ is, (f i).Has rule := by
  induction is generalizing r with
  | nil => simp
  | cons i is ih => simp [ih, or_assoc]

theorem has_unionOf (n : ℕ) (f : ℕ → RuleSet) (rule : Rule) :
    (unionOf n f).Has rule ↔ ∃ i < n, (f i).Has rule := by
  simp [unionOf, has_foldl_merge]

theorem blocked_card_eq_zero_iff (r : RuleSet) :
    r.len.1 = 0 ↔ ¬∃ domain, r.Has (.block domain) := by
  simp [len, Has, Finset.eq_empty_iff_forall_notMem]

end RuleSet

/-! ### Sources -/

/-- A configured rule source. -/
structure RuleSource where
  path : Option Text
  url : Option Text
  updateInterval : Option Text
deriving DecidableEq

/-- How fetching a url ends; a body is decoded lossily. -/
inductive FetchOutcome
  | body (text : Text)
  | failed
  | timedOut
deriving DecidableEq

/-- What one source delivers in one cycle: the file if it has a path, the body if it has a url. -/
structure SourceIo where
  readToString : Option Text
  fetchUrl : FetchOutcome
deriving DecidableEq

/-- The text `load_sources` gets from a source: the path comes first, a source with neither path nor
url is skipped. -/
def RuleSource.text (s : RuleSource) (io : SourceIo) : Option Text :=
  match s.path with
  | some _ => io.readToString
  | none =>
    match s.url with
    | some _ =>
      match io.fetchUrl with
      | .body text => some text
      | .failed => none
      | .timedOut => none
    | none => none

/-- The smallest valid interval of the sources with a url, if there is one: `spawn_updater` starts
its task only then. `parseDuration` is the parser of human-readable durations, in nanoseconds. -/
def updatePeriod (parseDuration : Text → Option ℕ) (sources : List RuleSource) : Option ℕ :=
  sources.foldl (fun period s ↦
    match s.url, s.updateInterval with
    | some _, some interval =>
      match parseDuration interval with
      | some d => if d = 0 then period else some (period.elim d fun m ↦ min m d)
      | none => period
    | _, _ => period) none

section Load

variable [Lowercase]

/-- The loop of `load_sources` from source `i` on. -/
def loadSourcesFrom (io : ℕ → SourceIo) : ℕ → List RuleSource → RuleSet → RuleSet
  | _, [], merged => merged
  | i, s :: rest, merged =>
    match s.text (io i) with
    | some text => loadSourcesFrom io (i + 1) rest (merged.merge (parseRules text))
    | none => loadSourcesFrom io (i + 1) rest merged

/-- `load_sources`: merge what every source delivers, skipping those that fail. -/
def loadSources (sources : List RuleSource) (io : ℕ → SourceIo) : RuleSet :=
  loadSourcesFrom io 0 sources RuleSet.empty

/-- The rules source `i` delivers in a cycle; `none` if it fails. -/
def delivered (sources : List RuleSource) (io : ℕ → SourceIo) (i : ℕ) : Option RuleSet :=
  sources[i]?.bind fun s ↦ (s.text (io i)).map parseRules

/-- What the sources of a nonempty list deliver: the first one, and the others one position on. -/
theorem exists_delivered_cons (io : ℕ → SourceIo) (s : RuleSource) (rest : List RuleSource)
    (rule : Rule) :
    (∃ i r, delivered (s :: rest) io i = some r ∧ r.Has rule) ↔
      (∃ text, s.text (io 0) = some text ∧ (parseRules text).Has rule) ∨
      ∃ i r, delivered rest (fun i ↦ io (i + 1)) i = some r ∧ r.Has rule := by
  have hhead : delivered (s :: rest) io 0 = (s.text (io 0)).map parseRules := rfl
  constructor
  · rintro ⟨- | i, r, hr, hrule⟩
    · rw [hhead, Option.map_eq_some_iff] at hr
      obtain ⟨text, htext, rfl⟩ := hr
      exact Or.inl ⟨text, htext, hrule⟩
    · exact Or.inr ⟨i, r, hr, hrule⟩
  · rintro (⟨text, htext, hrule⟩ | ⟨i, r, hr, hrule⟩)
    · exact ⟨0, parseRules text, by rw [hhead, htext, Option.map_some], hrule⟩
    · exact ⟨i + 1, r, hr, hrule⟩

theorem has_loadSourcesFrom (io : ℕ → SourceIo) (k : ℕ) (sources : List RuleSource)
    (merged : RuleSet) (rule : Rule) :
    (loadSourcesFrom io k sources merged).Has rule ↔ merged.Has rule ∨
      ∃ i r, delivered sources (fun i ↦ io (i + k)) i = some r ∧ r.Has rule := by
  induction sources generalizing k merged with
  | nil => simp [loadSourcesFrom, delivered]
  | cons s rest ih =>
    have hshift : (fun i ↦ io (i + 1 + k)) = fun i ↦ io (i + (k + 1)) :=
      funext fun i ↦ by rw [Nat.add_right_comm, Nat.add_assoc]
    -- the accumulator carries the sources before `k`, so the rest starts at position `k + 1`
    rw [exists_delivered_cons, Nat.zero_add, hshift]
    rcases htext : s.text (io k) with - | text
    · simp only [loadSourcesFrom, htext, ih]
      simp
    · simp only [loadSourcesFrom, htext, ih, RuleSet.has_merge]
      simp [or_assoc]

/-- A loaded rule is one that some source delivers. -/
theorem has_loadSources (sources : List RuleSource) (io : ℕ → SourceIo) (rule : Rule) :
    (loadSources sources io).Has rule ↔
      ∃ i r, delivered sources io i = some r ∧ r.Has rule := by
  rw [loadSources, has_loadSourcesFrom]
  simp

/-! ### Startup and the updater -/

/-- The filter, and for each source the rules of its most recent successful load: the latter is what
the specification remembers, no step of the code reads it. -/
structure UpdaterState where
  filter : Filter
  lastGood : ℕ → RuleSet

/-- The most recent successful loads after a cycle. -/
def nextLastGood (sources : List RuleSource) (io : ℕ → SourceIo) (lastGood : ℕ → RuleSet) (i : ℕ) :
    RuleSet :=
  (delivered sources io i).getD (lastGood i)

/-- The initial load of `build_pipeline`. -/
def UpdaterState.startup (allowlist : List Text) (sources : List RuleSource) (io : ℕ → SourceIo) :
    UpdaterState where
  filter :=
    if sources.isEmpty then Filter.new allowlist
    else (Filter.new allowlist).store (loadSources sources io)
  lastGood := nextLastGood sources io fun _ ↦ RuleSet.empty

/-- One round of the updater: load everything, and keep the old set when there is no blocked
entry. -/
def UpdaterState.refresh (sources : List RuleSource) (s : UpdaterState) (io : ℕ → SourceIo) :
    UpdaterState where
  filter :=
    let rules := loadSources sources io
    -- one decision for the merged set: a set with exceptions only is not stored either
    if rules.len.1 = 0 then s.filter else s.filter.store rules
  lastGood := nextLastGood sources io s.lastGood

/-- The updater as a machine: its rounds happen only if some source has a valid interval. -/
def updater (parseDuration : Text → Option ℕ) (sources : List RuleSource) :
    Machine UpdaterState (ℕ → SourceIo) where
  step s io := (updatePeriod parseDuration sources).map fun _ ↦ s.refresh sources io

/-! ### The specification -/

/-- The rules in force are the union, over all sources, of the most recent successful loads. -/
def Retained (sources : List RuleSource) (s : UpdaterState) : Prop :=
  s.filter.rules = RuleSet.unionOf sources.length s.lastGood

/-- Some source delivers the rule in this cycle. -/
def Delivers (sources : List RuleSource) (io : ℕ → SourceIo) (rule : Rule) : Prop :=
  ∃ i r, delivered sources io i = some r ∧ r.Has rule

/-- The rule stems from the last successful load of a source that fails in this cycle. -/
def Dropped (sources : List RuleSource) (s : UpdaterState) (io : ℕ → SourceIo) (rule : Rule) :
    Prop :=
  ∃ i < sources.length, delivered sources io i = none ∧ (s.lastGood i).Has rule

/-- The cycles that are in order. Either a blocked entry is delivered, and then every rule of a
failing source is also delivered by another one; or none is, and then the successful sources replace
their rules by rules that leave the union as it was. -/
def CycleInOrder (sources : List RuleSource) (s : UpdaterState) (io : ℕ → SourceIo) : Prop :=
  ((∃ domain, Delivers sources io (.block domain)) →
    ∀ rule, Dropped sources s io rule → Delivers sources io rule) ∧
  ((¬∃ domain, Delivers sources io (.block domain)) →
    ∀ rule, (∃ i < sources.length, (s.lastGood i).Has rule) ↔
      Delivers sources io rule ∨ Dropped sources s io rule)

theorem lt_length_of_delivered {sources : List RuleSource} {io : ℕ → SourceIo} {i : ℕ} {r : RuleSet}
    (h : delivered sources io i = some r) : i < sources.length := by
  obtain ⟨s, hs, -⟩ := Option.bind_eq_some_iff.1 h
  exact (List.getElem?_eq_some_iff.1 hs).1

/-- The specified set after a cycle: what is delivered, and what the failing sources last
delivered. -/
theorem has_unionOf_nextLastGood (sources : List RuleSource) (s : UpdaterState)
    (io : ℕ → SourceIo) (rule : Rule) :
    (RuleSet.unionOf sources.length (nextLastGood sources io s.lastGood)).Has rule ↔
      Delivers sources io rule ∨ Dropped sources s io rule := by
  rw [RuleSet.has_unionOf]
  constructor
  · rintro ⟨i, hi, hrule⟩
    unfold nextLastGood at hrule
    rcases hdel : delivered sources io i with - | r
    · rw [hdel, Option.getD_none] at hrule
      exact Or.inr ⟨i, hi, hdel, hrule⟩
    · rw [hdel, Option.getD_some] at hrule
      exact Or.inl ⟨i, r, hdel, hrule⟩
  · rintro (⟨i, r, hdel, hrule⟩ | ⟨i, hi, hdel, hrule⟩)
    · exact ⟨i, lt_length_of_delivered hdel, by rwa [nextLastGood, hdel, Option.getD_some]⟩
    · exact ⟨i, hi, by rwa [nextLastGood, hdel, Option.getD_none]⟩

/-- The startup load meets the specification. -/
theorem retained_startup (allowlist : List Text) (sources : List RuleSource) (io : ℕ → SourceIo) :
    Retained sources (.startup allowlist sources io) := by
  rcases sources with - | ⟨s, rest⟩
  · rfl
  · refine RuleSet.eq_iff_has.2 fun rule ↦ ?_
    have hnone : ¬Dropped (s :: rest) ⟨Filter.new allowlist, fun _ ↦ RuleSet.empty⟩ io rule :=
      fun ⟨i, _, _, h⟩ ↦ RuleSet.has_empty rule h
    exact (has_loadSources _ io rule).trans ((or_iff_left hnone).symm.trans
      (has_unionOf_nextLastGood _ ⟨Filter.new allowlist, fun _ ↦ RuleSet.empty⟩ io rule).symm)

/-- **When one round of the updater meets the specification.** -/
theorem refresh_retains_iff {sources : List RuleSource} {s : UpdaterState}
    (h : Retained sources s) (io : ℕ → SourceIo) :
    Retained sources (s.refresh sources io) ↔ CycleInOrder sources s io := by
  have hblocked : (loadSources sources io).len.1 = 0 ↔
      ¬∃ domain, Delivers sources io (.block domain) := by
    rw [RuleSet.blocked_card_eq_zero_iff]
    simp only [has_loadSources, Delivers]
  have hspec := has_unionOf_nextLastGood sources s io
  by_cases hzero : (loadSources sources io).len.1 = 0
  · -- the old set stays in force
    have hold : (s.refresh sources io).filter.rules =
        RuleSet.unionOf sources.length s.lastGood := by
      simp only [UpdaterState.refresh, hzero, if_true]
      exact h
    have hnot := hblocked.1 hzero
    rw [Retained, hold, RuleSet.eq_iff_has, CycleInOrder]
    simp only [UpdaterState.refresh, hspec, RuleSet.has_unionOf]
    exact ⟨fun hall ↦ ⟨fun hb ↦ absurd hb hnot, fun _ ↦ hall⟩, fun hall ↦ hall.2 hnot⟩
  · -- the loaded set replaces it
    have hnew : (s.refresh sources io).filter.rules = loadSources sources io := by
      simp [UpdaterState.refresh, hzero, Filter.store]
    have hsome := not_not.1 (mt hblocked.2 hzero)
    rw [Retained, hnew, RuleSet.eq_iff_has, CycleInOrder]
    simp only [UpdaterState.refresh, hspec, has_loadSources]
    constructor
    · intro hall
      exact ⟨fun _ rule hdrop ↦ (hall rule).2 (Or.inr hdrop), fun hb ↦ absurd hsome hb⟩
    · intro hall rule
      exact ⟨Or.inl, fun hor ↦ hor.elim id (hall.1 hsome rule)⟩

/-- **When the rules are retained.** For every list of sources, startup load and sequence of refresh
rounds: the rules in force are, after the startup load and after every round, the union of the most
recent successful loads of all sources if and only if every round is in order. -/
theorem rules_retained_iff (parseDuration : Text → Option ℕ) (allowlist : List Text)
    (sources : List RuleSource) (io : ℕ → SourceIo) (rounds : List (ℕ → SourceIo))
    (s : UpdaterState)
    (hrun : (updater parseDuration sources).run (.startup allowlist sources io) rounds = some s) :
    (Retained sources (.startup allowlist sources io) ∧
      (updater parseDuration sources).Along
        (fun s io ↦ ∀ t, (updater parseDuration sources).step s io = some t → Retained sources t)
        (.startup allowlist sources io) rounds) ↔
    (updater parseDuration sources).Along (CycleInOrder sources) (.startup allowlist sources io)
      rounds := by
  have hstart := retained_startup allowlist sources io
  rw [and_iff_right hstart]
  refine Machine.along_congr (I := Retained sources) (fun s io t hs hstep ↦ ?_)
    (fun s io t _ hq hstep ↦ hq t hstep) hrun hstart
  obtain ⟨period, hperiod, rfl⟩ := Option.map_eq_some_iff.1 hstep
  rw [← refresh_retains_iff hs]
  refine ⟨fun hall ↦ hall _ hstep, fun hret t ht ↦ ?_⟩
  rw [← Option.some.inj (hstep.symm.trans ht)]
  exact hret

end Load

/-! ### A source drops out

Two remote sources, one domain each. Both load at startup; in the first round the second fails. -/

namespace DropOut

def sources : List RuleSource :=
  ["http://one/rules", "http://two/rules"].map fun url ↦
    ⟨none, some url.toList, some "1h".toList⟩

def parseDuration (s : Text) : Option ℕ := if s = "1h".toList then some 3600000000000 else none

/-- Both sources deliver. -/
def startupIo (i : ℕ) : SourceIo :=
  ⟨none, .body (if i = 0 then "||one.example^".toList else "||two.example^".toList)⟩

/-- The first source delivers what it did before, the second fails. -/
def partialIo (i : ℕ) : SourceIo :=
  ⟨none, if i = 0 then .body "||one.example^".toList else .failed⟩

end DropOut

/-- The failing source's domain is no longer blocked after the round. -/
theorem failing_source_loses_rules :
    let _ := asciiLowercase
    let start := UpdaterState.startup [] DropOut.sources DropOut.startupIo
    ∃ s, (updater DropOut.parseDuration DropOut.sources).run start [DropOut.partialIo] = some s ∧
      start.filter.isBlocked "two.example".toList = true ∧
      s.filter.isBlocked "two.example".toList = false ∧
      (s.lastGood 1).blocked = {"two.example".toList} ∧ ¬Retained DropOut.sources s := by
  intro _ start
  refine ⟨start.refresh DropOut.sources DropOut.partialIo, by rfl, by decide +kernel,
    by decide +kernel, by decide +kernel, ?_⟩
  unfold Retained
  decide +kernel

/-- A round in which both sources deliver again is in order. -/
theorem rules_retained_full_round :
    let _ := asciiLowercase
    let M := updater DropOut.parseDuration DropOut.sources
    let start := UpdaterState.startup [] DropOut.sources DropOut.startupIo
    ∃ s, M.run start [DropOut.startupIo] = some s ∧
      M.Along (CycleInOrder DropOut.sources) start [DropOut.startupIo] := by
  intro _ M start
  have hrun : M.run start [DropOut.startupIo] =
      some (start.refresh DropOut.sources DropOut.startupIo) := by rfl
  refine ⟨_, hrun, (rules_retained_iff DropOut.parseDuration [] DropOut.sources DropOut.startupIo
    [DropOut.startupIo] _ hrun).1 ⟨retained_startup [] _ _, fun t ht ↦ ?_, fun t _ ↦ trivial⟩⟩
  rw [← Option.some.inj ht]
  unfold Retained
  decide +kernel

end DnsBuffer
