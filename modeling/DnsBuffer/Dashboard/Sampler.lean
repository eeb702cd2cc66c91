import DnsBuffer.Cache.Accounting
import Mathlib.Data.List.AList
import Mathlib.Data.Rat.Defs

/-!
# Observations of the cache

`CacheHitSampler::observe` reads the counters and the size of the cache, and then, under its own
lock, makes what it has read the latest observation and the point of its size. Any number of calls
do this at the same time, so an observation may be committed after one that was read later.

Then an older cumulative value replaces a newer one. Lookups are only ever counted up, so this is
what happens exactly when the newer observation has seen more lookups (`LateCommit`): an execution
keeps the newest observations if and only if no commit is late.

Observations are known by the position of their read (`reads`); the hit rate is taken as an exact
fraction.
-/

namespace DnsBuffer

/-- `CacheSample`. -/
structure CacheSample where
  size : ℕ
  hitRate : ℚ
  lookups : ℕ
deriving DecidableEq

/-- `SamplerState`: the latest observation, and one for every size. -/
structure SamplerState where
  latest : Option CacheSample
  bySize : AList fun _ : ℕ ↦ CacheSample

/-- What `observe` reads from the cache. -/
def CacheSample.ofCache (cache : Cache) : CacheSample where
  size := cache.len
  hitRate :=
    if cache.lookups = 0 then 0 else (min cache.hits cache.lookups : ℕ) / (cache.lookups : ℚ)
  lookups := cache.lookups

/-- What `observe` does under the lock; nothing if neither size nor lookups have changed. -/
def SamplerState.commit (s : SamplerState) (sample : CacheSample) : SamplerState :=
  if s.latest.any fun last ↦ last.size = sample.size ∧ last.lookups = sample.lookups then s
  else ⟨some sample, s.bySize.insert sample.size sample⟩

/-! ### Concurrent observers -/

/-- The cache and its sampler, with the reads made so far, and of these the ones still to be
committed and the ones committed. -/
structure SamplerWorld where
  cache : Cache
  state : SamplerState
  reads : List CacheSample
  pending : List ℕ
  committed : List ℕ

/-- A step of a concurrent execution. -/
inductive SamplerAction
  | cache (op : CacheOp)
  /-- A call of `observe` reads the cache. -/
  | read
  /-- The `i`-th of the calls that have read commits. -/
  | commit (i : ℕ)

namespace SamplerWorld

/-- `CacheHitSampler::new`, which makes the first observation. -/
def new (cache : Cache) : SamplerWorld where
  cache := cache
  state := SamplerState.commit ⟨none, ∅⟩ (.ofCache cache)
  reads := [.ofCache cache]
  pending := []
  committed := [0]

/-- The `i`-th call that has read commits its sample, read number `n`. -/
def commitRead (w : SamplerWorld) (i n : ℕ) (sample : CacheSample) : SamplerWorld :=
  { w with
    state := w.state.commit sample
    pending := w.pending.eraseIdx i
    committed := w.committed ++ [n] }

/-- The sampler and its cache as a machine. -/
def machine [WireFormat] : Machine SamplerWorld SamplerAction where
  step w
    | .cache op => (cacheMachine.step w.cache op).map fun cache ↦ { w with cache := cache }
    | .read =>
      some { w with
        reads := w.reads ++ [.ofCache w.cache]
        pending := w.pending ++ [w.reads.length] }
    | .commit i =>
      w.pending[i]?.bind fun n ↦ w.reads[n]?.map fun sample ↦ w.commitRead i n sample

/-- The point of a size is an observation of this size that was committed, and no committed one of
this size has seen more lookups. -/
structure NewestKept (w : SamplerWorld) : Prop where
  stored : ∀ n ∈ w.committed, ∀ sample, w.reads[n]? = some sample →
    ∃ point, w.state.bySize.lookup sample.size = some point ∧ sample.lookups ≤ point.lookups
  committed : ∀ size point, w.state.bySize.lookup size = some point →
    point.size = size ∧ ∃ n ∈ w.committed, w.reads[n]? = some point

/-- **Observations do not go backwards** in a step: the latest one has seen no fewer lookups than
the one before it, and every point is the newest. -/
structure Forward [WireFormat] (w : SamplerWorld) (a : SamplerAction) : Prop where
  latest : ∀ t last, machine.step w a = some t → w.state.latest = some last →
    ∃ next, t.state.latest = some next ∧ last.lookups ≤ next.lookups
  newest : ∀ t, machine.step w a = some t → t.NewestKept

/-- The action commits an observation after one that was read later and has seen more lookups. -/
def LateCommit (w : SamplerWorld) : SamplerAction → Prop
  | .commit i => ∃ n sample m later, w.pending[i]? = some n ∧ w.reads[n]? = some sample ∧
      m ∈ w.committed ∧ w.reads[m]? = some later ∧ n < m ∧ sample.lookups < later.lookups
  | _ => False

/-! ### What holds as long as nothing goes backwards -/

/-- Reads see more and more lookups, and of the committed ones the latest has seen the most. -/
structure Inv (w : SamplerWorld) : Prop where
  accounted : w.cache.Accounted
  ordered : w.reads.Pairwise fun a b ↦ a.lookups ≤ b.lookups
  counted : ∀ sample ∈ w.reads, sample.lookups ≤ w.cache.lookups
  committed : ∀ n ∈ w.committed, n < w.reads.length
  latest : ∃ last, w.state.latest = some last ∧ (∃ n ∈ w.committed, w.reads[n]? = some last) ∧
    ∀ n ∈ w.committed, ∀ sample, w.reads[n]? = some sample → sample.lookups ≤ last.lookups
  kept : w.NewestKept

/-- A sample becomes the point of its size; no committed one of this size has seen more. -/
theorem NewestKept.insert {w : SamplerWorld} (h : w.NewestKept) {n : ℕ} {sample : CacheSample}
    (hn : w.reads[n]? = some sample) (hmax : ∀ m ∈ w.committed, ∀ later, w.reads[m]? = some later →
      later.lookups ≤ sample.lookups) (latest : Option CacheSample) (pending : List ℕ) :
    NewestKept { w with
      state := ⟨latest, w.state.bySize.insert sample.size sample⟩
      pending := pending
      committed := w.committed ++ [n] } := by
  refine ⟨fun m hm later hlater ↦ ?_, fun size point hpoint ↦ ?_⟩
  · rcases eq_or_ne later.size sample.size with hsize | hsize
    · refine ⟨sample, by rw [hsize]; exact AList.lookup_insert _, ?_⟩
      rcases List.mem_append.1 hm with hm | hm
      · exact hmax m hm later hlater
      · rw [List.mem_singleton.1 hm] at hlater
        rw [Option.some.inj (hn.symm.trans hlater)]
    · rcases List.mem_append.1 hm with hm | hm
      · obtain ⟨point, hpoint, hle⟩ := h.stored m hm later hlater
        exact ⟨point, (AList.lookup_insert_ne hsize).trans hpoint, hle⟩
      · rw [List.mem_singleton.1 hm] at hlater
        exact absurd (congrArg CacheSample.size (Option.some.inj (hlater.symm.trans hn))) hsize
  · rcases eq_or_ne size sample.size with rfl | hsize
    · obtain rfl := Option.some.inj ((AList.lookup_insert _).symm.trans hpoint)
      exact ⟨rfl, n, List.mem_append_right _ (List.mem_singleton_self _), hn⟩
    · obtain ⟨hpointSize, m, hm, hread⟩ :=
        h.committed size point ((AList.lookup_insert_ne hsize).symm.trans hpoint)
      exact ⟨hpointSize, m, List.mem_append_left _ hm, hread⟩

theorem inv_new {cache : Cache} (h : cache.Accounted) : (new cache).Inv where
  accounted := h
  ordered := List.pairwise_singleton _ _
  counted := by simp [new, CacheSample.ofCache]
  committed := by simp [new]
  latest := by
    refine ⟨.ofCache cache, rfl, ⟨0, List.mem_singleton_self _, rfl⟩, fun n hn sample hsample ↦ ?_⟩
    rw [List.mem_singleton.1 hn] at hsample
    rw [← Option.some.inj hsample]
  kept :=
    let start : SamplerWorld := ⟨cache, ⟨none, ∅⟩, [.ofCache cache], [], []⟩
    have hstart : start.NewestKept := ⟨by simp [start], by simp [start]⟩
    hstart.insert (n := 0) rfl (by simp [start]) (some (.ofCache cache)) []

/-- More reads do not change the ones that were committed. -/
theorem Inv.getElem?_append {w : SamplerWorld} (h : w.Inv) {n : ℕ} (hn : n ∈ w.committed)
    (more : List CacheSample) : (w.reads ++ more)[n]? = w.reads[n]? :=
  List.getElem?_append_left (h.committed n hn)

/-- A read keeps what holds. -/
theorem Inv.read {w : SamplerWorld} (h : w.Inv) :
    Inv { w with
      reads := w.reads ++ [.ofCache w.cache]
      pending := w.pending ++ [w.reads.length] } := by
  have hsame : ∀ {n}, n ∈ w.committed → ∀ {sample},
      (w.reads ++ [CacheSample.ofCache w.cache])[n]? = some sample ↔ w.reads[n]? = some sample :=
    fun hn _ ↦ by rw [h.getElem?_append hn]
  obtain ⟨last, hlast, ⟨n, hn, hread⟩, hmax⟩ := h.latest
  refine ⟨h.accounted, ?_, ?_, fun m hm ↦ ?_, ⟨last, hlast, ⟨n, hn, (hsame hn).2 hread⟩,
    fun m hm sample hsample ↦ hmax m hm sample ((hsame hm).1 hsample)⟩,
    fun m hm sample hsample ↦ h.kept.stored m hm sample ((hsame hm).1 hsample),
    fun size point hpoint ↦ ?_⟩
  · refine List.pairwise_append.2 ⟨h.ordered, List.pairwise_singleton _ _, fun a ha b hb ↦ ?_⟩
    rw [List.mem_singleton.1 hb]
    exact h.counted a ha
  · rw [List.forall_mem_append, List.forall_mem_singleton]
    exact ⟨h.counted, le_rfl⟩
  · rw [List.length_append, List.length_singleton]
    exact Nat.lt_succ_of_lt (h.committed m hm)
  · obtain ⟨hsize, m, hm, hread⟩ := h.kept.committed size point hpoint
    exact ⟨hsize, m, hm, (hsame hm).2 hread⟩

section Steps

variable [WireFormat]

/-- A call on the cache keeps what holds: lookups are counted up. -/
theorem Inv.cache {w : SamplerWorld} (h : w.Inv) {op : CacheOp} {cache : Cache}
    (hstep : cacheMachine.step w.cache op = some cache) : Inv { w with cache := cache } := by
  have hle : w.cache.lookups ≤ cache.lookups := by
    rcases op with ⟨now, key, id⟩ | ⟨now, refuse, key, message⟩
    · rw [← Option.some.inj hstep, (w.cache.get_counters now key id).1]
      exact Nat.le_succ _
    · have hput := Cache.putResult_of_ok h.accounted (cacheMachine_step_put.1 hstep)
      exact hput.lookups.ge
  exact ⟨(cacheMachine_step_accounted h.accounted hstep).1, h.ordered,
    fun sample hsample ↦ (h.counted sample hsample).trans hle, h.committed, h.latest,
    ⟨h.kept.stored, h.kept.committed⟩⟩

end Steps

/-- Of two reads, the one that has seen fewer lookups came first. -/
theorem Inv.read_before {w : SamplerWorld} (h : w.Inv) {n m : ℕ} {sample later : CacheSample}
    (hn : w.reads[n]? = some sample) (hm : w.reads[m]? = some later)
    (hlt : sample.lookups < later.lookups) : n < m := by
  by_contra hge
  obtain ⟨hnlt, rfl⟩ := List.getElem?_eq_some_iff.1 hn
  obtain ⟨hmlt, rfl⟩ := List.getElem?_eq_some_iff.1 hm
  rcases Nat.eq_or_lt_of_le (Nat.le_of_not_lt hge) with rfl | hmn
  · exact lt_irrefl _ hlt
  · exact absurd (List.pairwise_iff_getElem.1 h.ordered m n hmlt hnlt hmn) (Nat.not_le.2 hlt)

/-- A commit that is not late has seen all that was seen before it. -/
theorem Inv.le_of_not_lateCommit {w : SamplerWorld} (h : w.Inv) {i n : ℕ} {sample : CacheSample}
    (hi : w.pending[i]? = some n) (hn : w.reads[n]? = some sample)
    (hnot : ¬w.LateCommit (.commit i)) :
    ∀ m ∈ w.committed, ∀ later, w.reads[m]? = some later → later.lookups ≤ sample.lookups := by
  intro m hm later hlater
  by_contra hlt
  rw [Nat.not_le] at hlt
  exact hnot ⟨n, sample, m, later, hi, hn, hm, hlater, h.read_before hn hlater hlt, hlt⟩

/-- A commit that has seen all that was seen before it keeps what holds, and does not go
backwards. -/
theorem Inv.commit {w : SamplerWorld} (h : w.Inv) (i : ℕ) {n : ℕ} {sample : CacheSample}
    (hn : w.reads[n]? = some sample)
    (hmax : ∀ m ∈ w.committed, ∀ later, w.reads[m]? = some later → later.lookups ≤ sample.lookups) :
    (w.commitRead i n sample).Inv ∧ ∀ last, w.state.latest = some last →
      ∃ next, (w.commitRead i n sample).state.latest = some next ∧ last.lookups ≤ next.lookups := by
  obtain ⟨last, hlast, ⟨k, hk, hread⟩, hlastMax⟩ := h.latest
  have hcommitted : ∀ m ∈ w.committed ++ [n], m < w.reads.length := by
    rw [List.forall_mem_append, List.forall_mem_singleton]
    exact ⟨h.committed, (List.getElem?_eq_some_iff.1 hn).1⟩
  have hsplit : ∀ {P : CacheSample → Prop}, P sample →
      (∀ m ∈ w.committed, ∀ later, w.reads[m]? = some later → P later) →
      ∀ m ∈ w.committed ++ [n], ∀ later, w.reads[m]? = some later → P later := by
    intro P hsample hold m hm later hlater
    rcases List.mem_append.1 hm with hm | hm
    · exact hold m hm later hlater
    · rw [List.mem_singleton.1 hm] at hlater
      exact Option.some.inj (hn.symm.trans hlater) ▸ hsample
  by_cases hskip : w.state.latest.any fun last ↦
      last.size = sample.size ∧ last.lookups = sample.lookups
  · -- the sample is left out, but the latest one has its size and its lookups
    have hstate : w.state.commit sample = w.state := if_pos hskip
    rw [hlast, Option.any_some, decide_eq_true_eq] at hskip
    obtain ⟨point, hpoint, hle⟩ := h.kept.stored k hk last hread
    rw [hskip.1] at hpoint
    simp only [commitRead, hstate]
    refine ⟨⟨h.accounted, h.ordered, h.counted, hcommitted,
      ⟨last, hlast, ⟨k, List.mem_append_left _ hk, hread⟩, hsplit hskip.2.ge hlastMax⟩,
      hsplit ⟨point, hpoint, hskip.2.ge.trans hle⟩ h.kept.stored, fun size point hpoint ↦ ?_⟩,
      fun other hother ↦ ⟨other, hother, le_rfl⟩⟩
    obtain ⟨hsize, m, hm, hmread⟩ := h.kept.committed size point hpoint
    exact ⟨hsize, m, List.mem_append_left _ hm, hmread⟩
  · have hstate : w.state.commit sample = ⟨some sample, w.state.bySize.insert sample.size sample⟩ :=
      if_neg hskip
    simp only [commitRead, hstate]
    refine ⟨⟨h.accounted, h.ordered, h.counted, hcommitted,
      ⟨sample, rfl, ⟨n, List.mem_append_right _ (List.mem_singleton_self _), hn⟩,
        hsplit le_rfl hmax⟩, h.kept.insert hn hmax _ _⟩, fun other hother ↦ ⟨sample, rfl, ?_⟩⟩
    rw [← Option.some.inj (hlast.symm.trans hother)]
    exact hmax k hk last hread

section Runs

variable [WireFormat]

/-- What a commit does. -/
theorem commit_of_step {w t : SamplerWorld} {i : ℕ} (hstep : machine.step w (.commit i) = some t) :
    ∃ n sample, w.pending[i]? = some n ∧ w.reads[n]? = some sample ∧
      t = w.commitRead i n sample := by
  obtain ⟨n, hi, hstep⟩ := Option.bind_eq_some_iff.1 hstep
  obtain ⟨sample, hn, rfl⟩ := Option.map_eq_some_iff.1 hstep
  exact ⟨n, sample, hi, hn, rfl⟩

/-- A commit that does not go backwards is not late. -/
theorem Inv.not_lateCommit {w : SamplerWorld} (h : w.Inv) {i : ℕ} {t : SamplerWorld}
    (hstep : machine.step w (.commit i) = some t) (hforward : w.Forward (.commit i)) :
    ¬w.LateCommit (.commit i) := by
  rintro ⟨n, sample, m, later, hi, hn, hm, hlater, -, hlt⟩
  obtain ⟨last, hlast, -, hlastMax⟩ := h.latest
  have hseen := hlastMax m hm later hlater
  obtain ⟨n', sample', hi', hn', rfl⟩ := commit_of_step hstep
  obtain rfl := Option.some.inj (hi.symm.trans hi')
  obtain rfl := Option.some.inj (hn.symm.trans hn')
  obtain ⟨next, hnext, hle⟩ := hforward.latest _ last hstep hlast
  have hdiffer : ¬(w.state.latest.any fun last ↦
      last.size = sample.size ∧ last.lookups = sample.lookups) := by
    rw [hlast, Option.any_some, decide_eq_true_eq]
    omega
  rw [commitRead, SamplerState.commit, if_neg hdiffer, Option.some.injEq] at hnext
  rw [← hnext] at hle
  omega

/-- An action that is no late commit keeps what holds. -/
theorem Inv.step {w t : SamplerWorld} {a : SamplerAction} (h : w.Inv) (hnot : ¬w.LateCommit a)
    (hstep : machine.step w a = some t) : t.Inv := by
  cases a with
  | cache op =>
    obtain ⟨cache, hcache, rfl⟩ := Option.map_eq_some_iff.1 hstep
    exact h.cache hcache
  | read =>
    obtain rfl := Option.some.inj hstep
    exact h.read
  | commit i =>
    obtain ⟨n, sample, hi, hn, rfl⟩ := commit_of_step hstep
    exact (h.commit i hn (h.le_of_not_lateCommit hi hn hnot)).1

/-- **One action** does not go backwards exactly if it is no late commit. -/
theorem Inv.forward_iff {w t : SamplerWorld} {a : SamplerAction} (h : w.Inv)
    (hstep : machine.step w a = some t) : w.Forward a ↔ ¬w.LateCommit a := by
  refine ⟨fun hforward ↦ ?_,
    fun hnot ↦ ⟨fun u last hu hlast ↦ ?_, fun u hu ↦ (h.step hnot hu).kept⟩⟩
  · cases a with
    | cache op => exact id
    | read => exact id
    | commit i => exact h.not_lateCommit hstep hforward
  · cases a with
    | cache op =>
      obtain ⟨cache, -, rfl⟩ := Option.map_eq_some_iff.1 hu
      exact ⟨last, hlast, le_rfl⟩
    | read =>
      obtain rfl := Option.some.inj hu
      exact ⟨last, hlast, le_rfl⟩
    | commit i =>
      obtain ⟨n, sample, hi, hn, rfl⟩ := commit_of_step hu
      exact (h.commit i hn (h.le_of_not_lateCommit hi hn hnot)).2 last hlast

/-- **Observations go forwards exactly if no commit is late**, in every execution of any number of
observers beside calls on the cache. -/
theorem forward_iff_no_late_commit (mb : ℕ) {as : List SamplerAction} {w : SamplerWorld}
    (hrun : machine.run (new (Cache.new mb)) as = some w) :
    machine.Along Forward (new (Cache.new mb)) as ↔
      machine.Along (fun w a ↦ ¬w.LateCommit a) (new (Cache.new mb)) as :=
  Machine.along_congr (I := Inv) (fun _ _ _ h hstep ↦ h.forward_iff hstep)
    (fun _ _ _ h hforward hstep ↦ h.step ((h.forward_iff hstep).1 hforward) hstep) hrun
    (inv_new (Cache.accounted_withMaxBytes _))

end Runs

end SamplerWorld

/-- Two observers around a lookup that commit in the order of their reads. -/
theorem forward_iff_no_late_commit_in_order :
    let _wire : WireFormat := ⟨fun _ ↦ some 20⟩
    let key : CacheKey := ⟨['a', '.', 'c'], 1⟩
    let as : List SamplerAction := [.read, .cache (.get 0 key 1), .read, .commit 0, .commit 0]
    ∃ w, SamplerWorld.machine.run (.new (Cache.new 1)) as = some w ∧
      (SamplerWorld.machine.Along SamplerWorld.Forward (.new (Cache.new 1)) as ↔
        SamplerWorld.machine.Along (fun w a ↦ ¬w.LateCommit a) (.new (Cache.new 1)) as) := by
  intro _wire key as
  have hrun : ∃ w, SamplerWorld.machine.run (.new (Cache.new 1)) as = some w := ⟨_, rfl⟩
  obtain ⟨w, hrun⟩ := hrun
  exact ⟨w, hrun, SamplerWorld.forward_iff_no_late_commit 1 hrun⟩

/-- Two observers around a lookup that commit the other way round: the latest observation has seen
no lookup where the one before it had seen one, and so has the point of the empty cache. -/
theorem late_commit_goes_backwards :
    let _wire : WireFormat := ⟨fun _ ↦ some 20⟩
    let key : CacheKey := ⟨['a', '.', 'c'], 1⟩
    let as : List SamplerAction := [.read, .cache (.get 0 key 1), .read, .commit 1]
    ∃ w t last next, SamplerWorld.machine.run (.new (Cache.new 1)) as = some w ∧
      SamplerWorld.machine.step w (.commit 0) = some t ∧
      w.state.latest = some last ∧ last.lookups = 1 ∧
      t.state.latest = some next ∧ next.lookups = 0 ∧ ¬t.NewestKept ∧
      ¬SamplerWorld.machine.Along SamplerWorld.Forward (.new (Cache.new 1))
        (as ++ [.commit 0]) := by
  intro _wire key as
  refine ⟨_, _, _, _, rfl, rfl, rfl, rfl, rfl, rfl, fun h ↦ ?_, fun h ↦ ?_⟩
  · obtain ⟨point, hpoint, hle⟩ := h.stored 2 (by decide) _ rfl
    rw [← Option.some.inj hpoint] at hle
    exact absurd hle (by decide)
  · obtain ⟨-, h⟩ := h
    obtain ⟨-, h⟩ := h _ rfl
    obtain ⟨-, h⟩ := h _ rfl
    obtain ⟨-, h⟩ := h _ rfl
    obtain ⟨next, hnext, hle⟩ := (h _ rfl).1.latest _ _ rfl rfl
    rw [← Option.some.inj hnext] at hle
    exact absurd hle (by decide)

end DnsBuffer
