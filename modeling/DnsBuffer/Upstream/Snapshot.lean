import DnsBuffer.Upstream.Stats
import Mathlib.Algebra.Group.Prod
import Mathlib.Algebra.BigOperators.Group.List.Basic
import Mathlib.Algebra.Field.Rat

/-!
# Snapshots

Records are dropped while recording, by whole hours and with the cutoff of that moment; a snapshot
filters what is left with a cutoff of its own. If the clock never goes back, each call is in the
bucket of its own hour, and what was dropped had ended by a cutoff that is no later than that of any
snapshot to come. So a snapshot is the direct count over the calls.

Both counts are tallies: how many calls, how many successes, the sum of their latencies. The
invariant (`Exact`) compares the tallies for every cutoff that a later snapshot can have.
-/

namespace DnsBuffer

open Bucket

variable {F : Type}

/-- What a call puts into the history: its time, and the latency of a success. -/
def StatsOp.call? : StatsOp F → Option (ℤ × Option F)
  | .success latencyMs now => some (now, some latencyMs)
  | .timeout now => some (now, none)
  | .softFail => none

/-- The recorded calls of a sequence. -/
def recordedCalls (ops : List (StatsOp F)) : List (ℤ × Option F) := ops.filterMap StatsOp.call?

/-- Those whose hour ends after the cutoff. -/
def countedCalls (cutoff : ℤ) (ops : List (StatsOp F)) : List (ℤ × Option F) :=
  (recordedCalls ops).filter fun call ↦ cutoff < bucket hourMs call.1 + hourMs

theorem recordedCalls_concat (ops : List (StatsOp F)) (op : StatsOp F) :
    recordedCalls (ops ++ [op]) = recordedCalls ops ++ op.call?.toList := by
  rw [recordedCalls, List.filterMap_append, recordedCalls]
  cases op <;> rfl

/-! ### Tallies -/

/-- Calls, successes and the sum of latencies of a bucket. -/
def HourBucket.tally (b : HourBucket F) : ℕ × ℕ × F := (b.samples, b.successes, b.latencySumMs)

variable [AddMonoid F]

/-- The tally of one call. -/
def callTally : Option F → ℕ × ℕ × F
  | some latencyMs => (1, 1, latencyMs)
  | none => (1, 0, 0)

/-- The tally of the buckets that end after the cutoff. -/
def bucketTally (cutoff : ℤ) (history : List (HourBucket F)) : ℕ × ℕ × F :=
  ((history.filter fun b ↦ cutoff < b.hourMs + hourMs).map HourBucket.tally).sum

/-- The tally of some calls. -/
def callsTally (calls : List (ℤ × Option F)) : ℕ × ℕ × F :=
  (calls.map fun call ↦ callTally call.2).sum

theorem tally_add (b : HourBucket F) (success : Option F) :
    (b.add success).tally = b.tally + callTally success := by
  rcases success with - | latencyMs
  · show _ = (b.samples + 1, b.successes + 0, b.latencySumMs + 0)
    rw [add_zero, add_zero]
    rfl
  · rfl

theorem tally_first (hour : ℤ) (success : Option F) :
    (HourBucket.first hour success).tally = callTally success := by
  rcases success with - | latencyMs <;> rfl

theorem bucketTally_append (cutoff : ℤ) (history history' : List (HourBucket F)) :
    bucketTally cutoff (history ++ history') =
      bucketTally cutoff history + bucketTally cutoff history' := by
  rw [bucketTally, List.filter_append, List.map_append, List.sum_append]
  rfl

theorem bucketTally_singleton (cutoff : ℤ) (b : HourBucket F) :
    bucketTally cutoff [b] = if cutoff < b.hourMs + hourMs then b.tally else 0 := by
  rw [bucketTally, List.filter_singleton]
  by_cases hb : cutoff < b.hourMs + hourMs
  · simp [hb]
  · simp [hb]

/-- The tally of calls is their number, that of the successes, and the sum of the latencies. -/
theorem callsTally_eq (calls : List (ℤ × Option F)) :
    callsTally calls = (calls.length, (calls.filterMap Prod.snd).length,
      (calls.filterMap Prod.snd).sum) := by
  induction calls with
  | nil => rfl
  | cons call calls ih =>
    obtain ⟨t, success⟩ := call
    rw [callsTally, List.map_cons, List.sum_cons, ← callsTally, ih]
    rcases success with - | latencyMs
    · show (1 + _, 0 + _, 0 + _) = _
      rw [zero_add, zero_add, Nat.add_comm]
      rfl
    · show (1 + _, 1 + _, latencyMs + _) = _
      rw [Nat.add_comm, Nat.add_comm 1]
      rfl

namespace UpstreamStats

theorem addBucket_concat (older : List (HourBucket F)) (newest : HourBucket F) (hour : ℤ)
    (success : Option F) : addBucket (older ++ [newest]) hour success =
      if hour ≤ newest.hourMs then older ++ [newest.add success]
      else older ++ [newest] ++ [.first hour success] := by
  simp only [addBucket, List.getLast?_concat, List.dropLast_concat]

/-- **A call in order** is tallied under its own hour. -/
theorem bucketTally_addBucket (cutoff : ℤ) {history : List (HourBucket F)} {hour : ℤ}
    (hle : ∀ b ∈ history, b.hourMs ≤ hour) (success : Option F) :
    bucketTally cutoff (addBucket history hour success) =
      bucketTally cutoff history + if cutoff < hour + hourMs then callTally success else 0 := by
  induction history using List.reverseRecOn with
  | nil =>
    show bucketTally cutoff [HourBucket.first hour success] = 0 + _
    rw [bucketTally_singleton, zero_add, tally_first]
    rfl
  | append_singleton older newest =>
    have hnewest := hle newest (List.mem_append_right _ (List.mem_singleton_self _))
    rw [addBucket_concat]
    split
    · -- the newest bucket takes the call only if it is of the same hour
      rename_i hhour
      obtain rfl : newest.hourMs = hour := le_antisymm hnewest hhour
      rw [bucketTally_append, bucketTally_append, bucketTally_singleton, bucketTally_singleton,
        add_hourMs, tally_add, add_assoc]
      split
      · rfl
      · rw [add_zero, add_zero, add_zero]
    · rw [bucketTally_append, bucketTally_singleton, tally_first]
      rfl

/-- What is dropped had ended by the cutoff. -/
theorem bucketTally_dropWhile {cutoff : ℤ} {past : HourBucket F → Bool}
    {history : List (HourBucket F)}
    (h : ∀ b ∈ history, past b = true → b.hourMs + hourMs ≤ cutoff) :
    bucketTally cutoff (history.dropWhile past) = bucketTally cutoff history := by
  have hnone : (history.takeWhile past).filter (fun b ↦ cutoff < b.hourMs + hourMs) = [] := by
    rw [List.filter_eq_nil_iff]
    intro b hb
    rw [decide_eq_true_eq, not_lt]
    exact h b ((List.takeWhile_prefix _).subset hb) (List.mem_takeWhile_imp hb)
  conv_rhs => rw [← List.takeWhile_append_dropWhile (p := past) (l := history)]
  rw [bucketTally_append]
  nth_rewrite 2 [bucketTally]
  rw [hnone, List.map_nil, List.sum_nil, zero_add]

/-! ### Recording in order -/

/-- The times of the recorded calls never decrease. -/
def ClockMonotone (ops : List (StatsOp F)) : Prop :=
  (recordedCalls ops).Pairwise fun call call' ↦ call.1 ≤ call'.1

/-- No recorded call is after this time. -/
def Until (ops : List (StatsOp F)) (now : ℤ) : Prop := ∀ call ∈ recordedCalls ops, call.1 ≤ now

/-- The buckets account for the calls, at every cutoff that a snapshot can have by now. -/
structure Exact (retentionDays : ℕ) (ops : List (StatsOp F)) (s : UpstreamStats F) : Prop where
  latest : ∀ now, Until ops now → ∀ b ∈ s.history, b.hourMs ≤ bucket hourMs now
  tally : ∀ now cutoff, Until ops now → now - retentionDays * dayMs ≤ cutoff →
    bucketTally cutoff s.history = callsTally (countedCalls cutoff ops)

omit [AddMonoid F] in
/-- Where the retention fits, the cutoff is exact: neither of the two sums saturates in a way that
matters. -/
theorem isPast_iff {retentionDays : ℕ} (hdays : 1 ≤ retentionDays)
    (hfits : retentionDays * dayMs < 2 ^ 63) {nowMs : ℤ} (hlo : -2 ^ 63 ≤ nowMs)
    (hhi : nowMs < 2 ^ 63) {b : HourBucket F} (hnonneg : 0 ≤ b.hourMs) :
    isPast (saturateI64 (nowMs - retentionDays * dayMs)) b = true ↔
      b.hourMs + hourMs ≤ nowMs - retentionDays * dayMs := by
  rw [isPast, decide_eq_true_eq]
  unfold saturateI64 hourMs
  unfold dayMs at hfits ⊢
  omega

/-- What a record leaves of the buckets: it drops only some that have ended by its cutoff. -/
theorem exists_past {window retentionDays : ℕ} (hdays : 1 ≤ retentionDays)
    {ops : List (StatsOp F)} {s : UpstreamStats F} (hinv : Inv window retentionDays ops s)
    (t : Timestamp) (success : Option F) : ∃ past,
      (s.recordHistory t success).history =
        (addBucket s.history (bucket hourMs t) success).dropWhile past ∧
      ∀ b : HourBucket F, 0 ≤ b.hourMs → past b = true →
        b.hourMs + hourMs ≤ t - retentionDays * dayMs := by
  have ht := t.2
  rcases retentionCutoff_cases hinv.retention hdays t with ⟨hcutoff, hfits⟩ | ⟨hcutoff, -⟩
  · have hlo : -2 ^ 63 ≤ t.1 := by omega
    refine ⟨isPast (saturateI64 (t - retentionDays * dayMs)), ?_, fun b hb ↦ ?_⟩
    · simp only [recordHistory, hour_eq, hcutoff]
    · exact (isPast_iff hdays hfits hlo ht.2 hb).1
  · refine ⟨fun _ ↦ false, ?_, fun b _ h ↦ absurd h Bool.false_ne_true⟩
    simp only [recordHistory, hour_eq, hcutoff]
    cases addBucket s.history (bucket hourMs t) success <;> rfl

theorem bucket_mono {t t' : ℤ} (h : t ≤ t') : bucket hourMs t ≤ bucket hourMs t' :=
  (le_bucket_iff (by decide) (dvd_bucket _ _)).2 ((bucket_le (by decide) t).trans h)

/-- A new call is of the last hour. -/
theorem le_of_mem_addBucket {history : List (HourBucket F)} {hour bound : ℤ}
    {success : Option F} (hle : ∀ b ∈ history, b.hourMs ≤ bound) (hhour : hour ≤ bound) :
    ∀ b ∈ addBucket history hour success, b.hourMs ≤ bound := by
  induction history using List.reverseRecOn with
  | nil =>
    show ∀ b ∈ [HourBucket.first hour success], _
    rw [List.forall_mem_singleton]
    exact hhour
  | append_singleton older newest =>
    rw [List.forall_mem_append, List.forall_mem_singleton] at hle
    rw [addBucket_concat]
    split
    · rw [List.forall_mem_append, List.forall_mem_singleton, add_hourMs]
      exact hle
    · rw [List.forall_mem_append, List.forall_mem_append, List.forall_mem_singleton,
        List.forall_mem_singleton]
      exact ⟨hle, hhour⟩

/-- **One record** adds its call to the tallies, whatever it drops. -/
theorem Exact.record {window retentionDays : ℕ} (hdays : 1 ≤ retentionDays)
    {ops : List (StatsOp F)} {s : UpstreamStats F} (hinv : Inv window retentionDays ops s)
    (h : Exact retentionDays ops s) {op : StatsOp F} {t : Timestamp} {success : Option F}
    (hcall : op.call? = some (t.1, success)) (hmono : ClockMonotone (ops ++ [op]))
    {s' : UpstreamStats F} (hhistory : s'.history = (s.recordHistory t success).history) :
    Exact retentionDays (ops ++ [op]) s' := by
  have hcalls : recordedCalls (ops ++ [op]) = recordedCalls ops ++ [(t.1, success)] := by
    rw [recordedCalls_concat, hcall]
    rfl
  have hbefore : Until ops t := by
    rw [ClockMonotone, hcalls, List.pairwise_append] at hmono
    exact fun call hmem ↦ hmono.2.2 call hmem _ (List.mem_singleton_self _)
  have hsplit : ∀ {now}, Until (ops ++ [op]) now → Until ops now ∧ t.1 ≤ now := by
    intro now hnow
    rw [Until, hcalls, List.forall_mem_append, List.forall_mem_singleton] at hnow
    exact hnow
  obtain ⟨past, heq, hpast⟩ := exists_past hdays hinv t success
  rw [heq] at hhistory
  constructor
  · intro now hnow b hb
    obtain ⟨hops, ht⟩ := hsplit hnow
    rw [hhistory] at hb
    exact le_of_mem_addBucket (h.latest now hops) (bucket_mono ht) b
      ((List.dropWhile_sublist _).subset hb)
  · intro now cutoff hnow hcutoff
    obtain ⟨hops, ht⟩ := hsplit hnow
    have hdropped : ∀ b ∈ addBucket s.history (bucket hourMs t) success, past b = true →
        b.hourMs + hourMs ≤ cutoff := by
      intro b hb hb'
      have haligned := (hinv.history.grow t success).2.1 b hb
      have hended := hpast b haligned.2.1 hb'
      omega
    rw [hhistory, bucketTally_dropWhile hdropped, bucketTally_addBucket _ (h.latest t hbefore),
      h.tally now cutoff hops hcutoff, countedCalls, countedCalls, hcalls, List.filter_append,
      callsTally, callsTally, List.map_append, List.sum_append]
    congr 1
    by_cases hcounted : cutoff < bucket hourMs t + hourMs
    · simp [hcounted]
    · simp [hcounted]

/-- A soft failure is not recorded. -/
theorem Exact.softFail {retentionDays : ℕ} {ops : List (StatsOp F)} {s s' : UpstreamStats F}
    (h : Exact retentionDays ops s) (hhistory : s'.history = s.history) :
    Exact retentionDays (ops ++ [.softFail]) s' := by
  have hcalls : recordedCalls (ops ++ [.softFail]) = recordedCalls ops := by
    rw [recordedCalls_concat]
    exact List.append_nil _
  constructor
  · intro now hnow
    rw [hhistory]
    exact h.latest now (by rwa [Until, hcalls] at hnow)
  · intro now cutoff hnow hcutoff
    rw [hhistory, countedCalls, hcalls]
    exact h.tally now cutoff (by rwa [Until, hcalls] at hnow) hcutoff

/-- **Any sequence of calls in order.** -/
theorem exact_after {window retentionDays : ℕ} (hdays : 1 ≤ retentionDays)
    {ops : List (StatsOp F)} (hmono : ClockMonotone ops) :
    Exact retentionDays ops (after window retentionDays ops) := by
  induction ops using List.reverseRecOn with
  | nil => exact ⟨fun _ _ b hb ↦ absurd hb List.not_mem_nil, fun _ _ _ _ ↦ rfl⟩
  | append_singleton ops op ih =>
    have hbefore : ClockMonotone ops := by
      rw [ClockMonotone, recordedCalls_concat, List.pairwise_append] at hmono
      exact hmono.1
    have hinv := inv_after window retentionDays ops
    rw [after, List.foldl_concat, ← after]
    cases op with
    | success latencyMs now => exact (ih hbefore).record hdays hinv rfl hmono rfl
    | timeout now => exact (ih hbefore).record hdays hinv rfl hmono rfl
    | softFail => exact (ih hbefore).softFail rfl

/-! ### Snapshots -/

/-- The buckets a snapshot covers are those that end after `now` less the retention. -/
theorem bucketTally_covered {window retentionDays : ℕ} (hdays : 1 ≤ retentionDays)
    {ops : List (StatsOp F)} {s : UpstreamStats F} (hinv : Inv window retentionDays ops s)
    {nowMs : ℤ} (hlo : -2 ^ 63 ≤ nowMs) (hhi : nowMs < 2 ^ 63) :
    ((s.covered nowMs).map HourBucket.tally).sum =
      bucketTally (nowMs - retentionDays * dayMs) s.history := by
  have haligned := hinv.history.aligned
  rw [bucketTally]
  congr 2
  rcases retentionCutoff_cases hinv.retention hdays nowMs with
    ⟨hcutoff, hfits⟩ | ⟨hcutoff, hlarge⟩
  · simp only [covered, hcutoff]
    refine List.filter_congr fun b hb ↦ ?_
    have hpast := isPast_iff hdays hfits hlo hhi (haligned b hb).2.1
    rw [Bool.eq_iff_iff, Bool.not_eq_true', Bool.eq_false_iff, Ne, hpast, not_le,
      decide_eq_true_eq]
  · -- nothing that ends after the epoch is older than such a retention
    simp only [covered, hcutoff]
    rw [eq_comm, List.filter_eq_self]
    intro b hb
    have hnonneg := (haligned b hb).2.1
    rw [decide_eq_true_eq]
    unfold hourMs
    omega

theorem sum_tally (buckets : List (HourBucket F)) :
    (buckets.map HourBucket.tally).sum = ((buckets.map HourBucket.samples).sum,
      (buckets.map HourBucket.successes).sum,
      buckets.foldl (fun sum b ↦ sum + b.latencySumMs) 0) := by
  induction buckets using List.reverseRecOn with
  | nil => rfl
  | append_singleton buckets b ih =>
    rw [List.map_append, List.sum_append, ih, List.map_append, List.sum_append, List.map_append,
      List.sum_append, List.foldl_concat]
    simp [HourBucket.tally]

/-- What a snapshot shows, the failure rate apart. -/
theorem snapshotAt_fields [Div F] [NatCast F] {s : UpstreamStats F} {nowMs : ℤ}
    {snapshot : StatsSnapshot F} (h : s.snapshotAt nowMs = .ok snapshot) :
    snapshot.samples = ((s.covered nowMs).map HourBucket.samples).sum ∧
      snapshot.successes = ((s.covered nowMs).map HourBucket.successes).sum ∧
      snapshot.avgLatencyMs = if 0 < snapshot.successes then
        some ((s.covered nowMs).foldl (fun sum b ↦ sum + b.latencySumMs) 0 /
          (snapshot.successes : F)) else none := by
  have hmap : ∀ (rate : Except UsizeError F) (f : F → StatsSnapshot F),
      rate.map f = .ok snapshot → ∃ r, f r = snapshot := by
    intro rate f hrate
    cases rate with
    | error e => cases hrate
    | ok r => exact ⟨r, Except.ok.inj hrate⟩
  obtain ⟨rate, rfl⟩ := hmap _ _ h
  exact ⟨rfl, rfl, rfl⟩

/-- **Snapshots are exact for a clock that never goes back.** With a retention of at least a day, a
snapshot counts the recorded calls whose hour ends after `now` less the retention, the successes
among them, and the mean of their latencies. -/
theorem snapshot_exact [Div F] [NatCast F] {window retentionDays : ℕ} (hdays : 1 ≤ retentionDays)
    {ops : List (StatsOp F)} (hmono : ClockMonotone ops) {nowMs : ℤ} (hlo : -2 ^ 63 ≤ nowMs)
    (hhi : nowMs < 2 ^ 63) (hnow : Until ops nowMs) :
    let counted := countedCalls (nowMs - retentionDays * dayMs) ops
    let latencies := counted.filterMap Prod.snd
    ∃ snapshot, (after window retentionDays ops).snapshotAt nowMs = .ok snapshot ∧
      snapshot.samples = counted.length ∧ snapshot.successes = latencies.length ∧
      snapshot.avgLatencyMs =
        if latencies = [] then none else some (latencies.sum / (latencies.length : F)) := by
  intro counted latencies
  have hinv := inv_after window retentionDays ops
  have htally := bucketTally_covered hdays hinv hlo hhi
  rw [(exact_after hdays hmono).tally nowMs _ hnow le_rfl, callsTally_eq, sum_tally,
    Prod.mk.injEq, Prod.mk.injEq] at htally
  obtain ⟨hsamples, hsuccesses, hlatency⟩ := htally
  obtain ⟨snapshot, hsnapshot⟩ := snapshotAt_ok (s := after window retentionDays ops)
    (fun b hb ↦ (hinv.history.counted b hb).2) nowMs
  obtain ⟨hfields, hfields', havg⟩ := snapshotAt_fields hsnapshot
  rw [hsamples] at hfields
  rw [hsuccesses] at hfields'
  refine ⟨snapshot, hsnapshot, hfields, hfields', ?_⟩
  rw [havg, hfields', hlatency]
  by_cases hnil : latencies = []
  · rw [if_pos hnil, if_neg]
    rw [not_lt, Nat.le_zero, List.length_eq_zero_iff]
    exact hnil
  · rw [if_neg hnil, if_pos (List.length_pos_iff.2 hnil)]

/-- With a retention of one day, a success of 5 ms at the epoch is no longer counted a day and two
hours later, a timeout two hours after it still is. -/
theorem snapshot_exact_day :
    ∃ snapshot, (after 4 1 ([.success 5 ⟨0, by decide⟩, .softFail,
        .timeout ⟨7200000, by decide⟩] : List (StatsOp ℚ))).snapshotAt 93600000 = .ok snapshot ∧
      snapshot.samples = 1 ∧ snapshot.successes = 0 ∧ snapshot.avgLatencyMs = none := by
  refine snapshot_exact (by decide) ?_ (by decide) (by decide) ?_
  · rw [ClockMonotone]
    decide
  · rw [Until]
    decide

end UpstreamStats

end DnsBuffer
