import DnsBuffer.Cache.Model
import DnsBuffer.Dashboard.Store

/-!
# Statistics of an upstream

`UpstreamStats` keeps two things about the calls of one upstream: a window of the most recent
outcomes, by which members of a group are chosen, and hourly buckets for the dashboard. Soft
failures go to the window only.

The clock is the wall clock and may jump either way. A record that is not after the newest bucket is
added to it, so the buckets stay in order whatever the clock does, and whenever a bucket is added
the old ones that retention no longer covers are dropped. These two facts carry the invariant
(`UpstreamStats.Inv`); in particular the bound on the number of buckets is re-established by every
record that adds one, and kept by those that do not.

Latencies are numbers of a type `F` of which nothing is used but its operations. Timestamps are the
non-negative values of an `i64`.
-/

namespace DnsBuffer

open Bucket

/-! ### The model -/

/-- The nearest `i64`. -/
def saturateI64 (x : ℤ) : ℤ := max (-2 ^ 63) (min x (2 ^ 63 - 1))

/-- A non-negative `i64`. -/
abbrev Timestamp := {t : ℤ // 0 ≤ t ∧ t < 2 ^ 63}

/-- An outcome in the window, `Sample` in the source. -/
inductive StatSample (F : Type)
  | success (latencyMs : F)
  | failure
deriving DecidableEq

/-- The calls of one hour. -/
structure HourBucket (F : Type) where
  hourMs : ℤ
  samples : ℕ
  successes : ℕ
  latencySumMs : F
deriving DecidableEq

/-- The statistics of one upstream. -/
structure UpstreamStats (F : Type) where
  window : ℕ
  samples : List (StatSample F)
  /-- None means that history is kept forever. -/
  retentionMs : Option ℤ
  history : List (HourBucket F)
deriving DecidableEq

/-- What the dashboard shows of an upstream. -/
structure StatsSnapshot (F : Type) where
  samples : ℕ
  successes : ℕ
  failureRate : F
  avgLatencyMs : Option F
deriving DecidableEq

/-- A call on the statistics. -/
inductive StatsOp (F : Type)
  | success (latencyMs : F) (now : Timestamp)
  | timeout (now : Timestamp)
  | softFail
deriving DecidableEq

variable {F : Type}

/-- The outcome that a call puts into the window. -/
def StatsOp.sample : StatsOp F → StatSample F
  | .success latencyMs _ => .success latencyMs
  | .timeout _ => .failure
  | .softFail => .failure

/-- The call goes into the history. -/
def StatsOp.isRecorded : StatsOp F → Bool
  | .success _ _ => true
  | .timeout _ => true
  | .softFail => false

/-- The retention in milliseconds: none for 0 days, and none where it does not fit. -/
def retentionMsOf (retentionDays : ℕ) : Option ℤ :=
  ((checkedI64 retentionDays).filter (0 < ·)).bind fun days ↦ checkedI64 (days * dayMs)

namespace HourBucket

/-- One more call in a bucket; a success comes with its latency. -/
def add [Add F] (b : HourBucket F) : Option F → HourBucket F
  | some latencyMs =>
    { b with
      samples := b.samples + 1
      successes := b.successes + 1
      latencySumMs := b.latencySumMs + latencyMs }
  | none => { b with samples := b.samples + 1 }

/-- The bucket of the first call of an hour. -/
def first [Zero F] (hourMs : ℤ) (successLatencyMs : Option F) : HourBucket F :=
  ⟨hourMs, 1, if successLatencyMs.isSome then 1 else 0, successLatencyMs.getD 0⟩

end HourBucket

namespace UpstreamStats

/-- `UpstreamStats::with_retention`. -/
def withRetention (window retentionDays : ℕ) : UpstreamStats F where
  window := max window 1
  samples := []
  retentionMs := retentionMsOf retentionDays
  history := []

/-- `UpstreamStats::push`. -/
def push (s : UpstreamStats F) (sample : StatSample F) : UpstreamStats F :=
  { s with
    samples := (if s.samples.length = s.window then s.samples.tail else s.samples) ++ [sample] }

/-- `UpstreamStats::retention_cutoff`. -/
def retentionCutoff (s : UpstreamStats F) (nowMs : ℤ) : Option ℤ :=
  s.retentionMs.map fun retentionMs ↦ saturateI64 (nowMs - retentionMs)

/-- The bucket ends by the cutoff. -/
def isPast (cutoff : ℤ) (b : HourBucket F) : Bool := saturateI64 (b.hourMs + hourMs) ≤ cutoff

variable [Zero F] [Add F]

/-- The first half of `record_history`: the newest bucket takes the call, unless it is from an
earlier hour. -/
def addBucket (history : List (HourBucket F)) (hourMs : ℤ) (successLatencyMs : Option F) :
    List (HourBucket F) :=
  match history.getLast? with
  | some newest =>
    if hourMs ≤ newest.hourMs then history.dropLast ++ [newest.add successLatencyMs]
    else history ++ [.first hourMs successLatencyMs]
  | none => history ++ [.first hourMs successLatencyMs]

/-- `UpstreamStats::record_history`. -/
def recordHistory (s : UpstreamStats F) (nowMs : ℤ) (successLatencyMs : Option F) :
    UpstreamStats F :=
  let history := addBucket s.history (saturateI64 (nowMs / hourMs * hourMs)) successLatencyMs
  { s with
    history := match s.retentionCutoff nowMs with
      | some cutoff => history.dropWhile (isPast cutoff)
      | none => history }

/-- `record_success_at`, `record_timeout_at` and `record_soft_fail`. -/
def apply (s : UpstreamStats F) : StatsOp F → UpstreamStats F
  | .success latencyMs now => (s.push (.success latencyMs)).recordHistory now (some latencyMs)
  | .timeout now => (s.push .failure).recordHistory now none
  | .softFail => s.push .failure

/-- The statistics after a sequence of calls. -/
def after (window retentionDays : ℕ) (ops : List (StatsOp F)) : UpstreamStats F :=
  ops.foldl apply (withRetention window retentionDays)

/-- The buckets a snapshot covers. -/
def covered (s : UpstreamStats F) (nowMs : ℤ) : List (HourBucket F) :=
  match s.retentionCutoff nowMs with
  | some cutoff => s.history.filter fun b ↦ !isPast cutoff b
  | none => s.history

/-- `UpstreamStats::snapshot_at`. -/
def snapshotAt [Div F] [NatCast F] (s : UpstreamStats F) (nowMs : ℤ) :
    Except UsizeError (StatsSnapshot F) :=
  let buckets := s.covered nowMs
  let samples := (buckets.map HourBucket.samples).sum
  let successes := (buckets.map HourBucket.successes).sum
  let latencySum := buckets.foldl (fun sum b ↦ sum + b.latencySumMs) 0
  let failureRate : Except UsizeError F :=
    if samples = 0 then .ok 0
    else (usizeSub samples successes).map fun (failures : ℕ) ↦ (failures : F) / (samples : F)
  failureRate.map fun failureRate ↦
    { samples := samples
      successes := successes
      failureRate := failureRate
      avgLatencyMs := if 0 < successes then some (latencySum / (successes : F)) else none }

/-! ### The window -/

omit [Zero F] [Add F] in
/-- A push keeps the newest outcomes, as many as the window has room for. -/
theorem push_samples {s : UpstreamStats F} {past : List (StatSample F)} (hwindow : 1 ≤ s.window)
    (hsuffix : s.samples <:+ past) (hlength : s.samples.length = min past.length s.window)
    (sample : StatSample F) :
    (s.push sample).samples <:+ past ++ [sample] ∧
      (s.push sample).samples.length = min (past.length + 1) s.window := by
  simp only [push, List.suffix_append_self_iff, List.length_append, List.length_singleton]
  split
  · refine ⟨(List.tail_suffix _).trans hsuffix, ?_⟩
    rw [List.length_tail]
    omega
  · exact ⟨hsuffix, by omega⟩

/-! ### The history -/

/-- What holds of the buckets whatever the clock does: they are in order and of whole hours, none is
empty or has more successes than calls, and they are no more than retention can cover. -/
structure WellFormed (retentionDays : ℕ) (history : List (HourBucket F)) : Prop where
  ordered : (history.map HourBucket.hourMs).Pairwise (· < ·)
  aligned : ∀ b ∈ history, hourMs ∣ b.hourMs ∧ 0 ≤ b.hourMs ∧ b.hourMs < 2 ^ 63
  counted : ∀ b ∈ history, 1 ≤ b.samples ∧ b.successes ≤ b.samples
  bounded : 1 ≤ retentionDays → history.length ≤ 24 * retentionDays + 1

omit [Zero F] in
@[simp] theorem add_hourMs (b : HourBucket F) (success : Option F) :
    (b.add success).hourMs = b.hourMs := by
  rcases success with - | latencyMs <;> rfl

omit [Zero F] in
@[simp] theorem add_samples (b : HourBucket F) (success : Option F) :
    (b.add success).samples = b.samples + 1 := by
  rcases success with - | latencyMs <;> rfl

omit [Zero F] in
theorem add_successes_le {b : HourBucket F} (h : b.successes ≤ b.samples) (success : Option F) :
    (b.add success).successes ≤ (b.add success).samples := by
  rcases success with - | latencyMs
  · exact Nat.le_succ_of_le h
  · exact Nat.succ_le_succ h

omit [Add F] in
theorem first_successes_le (hour : ℤ) (success : Option F) :
    (HourBucket.first hour success).successes ≤ (HourBucket.first hour success).samples := by
  rcases success with - | latencyMs <;> simp [HourBucket.first]

/-- The call goes into the newest bucket, or into a new one after all others. -/
theorem addBucket_cases {history : List (HourBucket F)}
    (hordered : (history.map HourBucket.hourMs).Pairwise (· < ·)) (hour : ℤ) (success : Option F) :
    (∃ older newest, history = older ++ [newest] ∧
      addBucket history hour success = older ++ [newest.add success]) ∨
    ((∀ b ∈ history, b.hourMs < hour) ∧
      addBucket history hour success = history ++ [.first hour success]) := by
  induction history using List.reverseRecOn with
  | nil => exact Or.inr ⟨fun b hb ↦ absurd hb List.not_mem_nil, rfl⟩
  | append_singleton older newest =>
    rcases le_or_gt hour newest.hourMs with hle | hlt
    · exact Or.inl ⟨older, newest, rfl, by simp [addBucket, hle]⟩
    · refine Or.inr ⟨fun b hb ↦ ?_, by simp [addBucket, not_le.2 hlt]⟩
      rw [List.map_append, List.pairwise_append] at hordered
      rcases List.mem_append.1 hb with hb | hb
      · exact (hordered.2.2 _ (List.mem_map_of_mem hb) _ (List.mem_singleton_self _)).trans hlt
      · rwa [List.mem_singleton.1 hb]

/-- The hour of a call. -/
theorem hour_eq (now : Timestamp) : saturateI64 (now / hourMs * hourMs) = bucket hourMs now := by
  obtain ⟨t, hnonneg, hlt⟩ := now
  have hle := bucket_le (w := hourMs) (by decide) t
  have hlo : 0 ≤ bucket hourMs t :=
    (le_bucket_iff (w := hourMs) (by decide) (dvd_zero _)).2 hnonneg
  show saturateI64 (bucket hourMs t) = bucket hourMs t
  unfold saturateI64
  omega

/-- The first half of a record keeps the buckets well-formed, the bound apart: where it adds a
bucket, this is the last one. -/
theorem WellFormed.grow {retentionDays : ℕ} {history : List (HourBucket F)}
    (h : WellFormed retentionDays history) (now : Timestamp) (success : Option F) :
    let history' := addBucket history (bucket hourMs now) success
    (history'.map HourBucket.hourMs).Pairwise (· < ·) ∧
    (∀ b ∈ history', hourMs ∣ b.hourMs ∧ 0 ≤ b.hourMs ∧ b.hourMs < 2 ^ 63) ∧
    (∀ b ∈ history', 1 ≤ b.samples ∧ b.successes ≤ b.samples) ∧
    (history'.length = history.length ∨ ∀ b ∈ history', b.hourMs ≤ bucket hourMs now) := by
  intro history'
  rcases addBucket_cases h.ordered (bucket hourMs now) success with
    ⟨older, newest, rfl, heq⟩ | ⟨hbefore, heq⟩
  · obtain ⟨hordered, haligned, hcounted, -⟩ := h
    rw [List.forall_mem_append, List.forall_mem_singleton] at haligned hcounted
    simp only [history', heq, List.forall_mem_append, List.forall_mem_singleton, add_hourMs,
      List.map_append, List.map_singleton] at hordered ⊢
    refine ⟨hordered, haligned, ⟨hcounted.1, ?_, add_successes_le hcounted.2.2 success⟩,
      Or.inl (by simp)⟩
    rw [add_samples]
    omega
  · have hnonneg : 0 ≤ bucket hourMs now :=
      (le_bucket_iff (w := hourMs) (by decide) (dvd_zero _)).2 now.2.1
    have hlt := (bucket_le (w := hourMs) (by decide) now.1).trans_lt now.2.2
    simp only [history', heq, List.forall_mem_append, List.forall_mem_singleton, List.map_append,
      List.map_singleton, List.pairwise_append]
    refine ⟨⟨h.ordered, List.pairwise_singleton _ _, ?_⟩,
      ⟨h.aligned, dvd_bucket _ _, hnonneg, hlt⟩,
      ⟨h.counted, le_rfl, first_successes_le _ success⟩,
      Or.inr ⟨fun b hb ↦ (hbefore b hb).le, le_rfl⟩⟩
    intro hour hhour
    obtain ⟨b, hb, rfl⟩ := List.mem_map.1 hhour
    exact hbefore b hb

omit [Zero F] [Add F] in
/-- What a prune leaves of ascending buckets is not past. -/
theorem not_isPast_of_mem_dropWhile {history : List (HourBucket F)} {cutoff : ℤ}
    (hordered : (history.map HourBucket.hourMs).Pairwise (· < ·)) {b : HourBucket F}
    (hb : b ∈ history.dropWhile (isPast cutoff)) : ¬isPast cutoff b := by
  induction history with
  | nil => exact absurd hb List.not_mem_nil
  | cons c rest ih =>
    rw [List.map_cons, List.pairwise_cons] at hordered
    rw [List.dropWhile_cons] at hb
    split at hb
    · exact ih hordered.2 hb
    · rename_i hc
      rcases List.mem_cons.1 hb with rfl | hrest
      · exact hc
      · -- a later bucket ends later
        have hlt := hordered.1 _ (List.mem_map_of_mem hrest)
        rw [isPast, decide_eq_true_eq] at hc ⊢
        unfold saturateI64 at hc ⊢
        omega

omit [Zero F] [Add F] in
/-- How many hours fit into the days of retention. -/
theorem length_le_of_covered (lo : ℤ) {hi : ℤ} {retentionDays : ℕ} {history : List (HourBucket F)}
    (hordered : (history.map HourBucket.hourMs).Pairwise (· < ·))
    (haligned : ∀ b ∈ history, hourMs ∣ b.hourMs) (hlo : ∀ b ∈ history, lo ≤ b.hourMs)
    (hhi : ∀ b ∈ history, b.hourMs ≤ hi) (hle : lo ≤ hi)
    (hspan : hi - lo ≤ 24 * retentionDays * hourMs) : history.length ≤ 24 * retentionDays + 1 := by
  have h := mul_length_le_of_pairwise (w := hourMs) lo (by decide) hordered
    (by simpa using haligned) (by simpa using hlo) (by simpa using hhi)
    (hle.trans (by simp [hourMs]))
  rw [List.length_map] at h
  unfold hourMs at h hspan
  omega

/-- The retention of at least one day, unless that many milliseconds do not fit. -/
theorem retentionMsOf_cases {retentionDays : ℕ} (hdays : 1 ≤ retentionDays) :
    (retentionMsOf retentionDays = some (retentionDays * dayMs) ∧ retentionDays * dayMs < 2 ^ 63) ∨
      (retentionMsOf retentionDays = none ∧ 2 ^ 63 ≤ retentionDays * dayMs) := by
  have hpos : decide (0 < (retentionDays : ℤ)) = true := decide_eq_true (by omega)
  have hlo : -2 ^ 63 ≤ retentionDays * dayMs := by
    unfold dayMs
    omega
  rcases lt_or_ge (retentionDays : ℤ) (2 ^ 63) with hday | hday
  · have hbind : retentionMsOf retentionDays = checkedI64 (retentionDays * dayMs) := by
      rw [retentionMsOf, checkedI64, if_pos ⟨by omega, hday⟩, Option.filter_some, if_pos hpos,
        Option.bind_some]
    rw [hbind]
    rcases lt_or_ge (retentionDays * dayMs) (2 ^ 63) with hfits | hlarge
    · exact Or.inl ⟨if_pos ⟨hlo, hfits⟩, hfits⟩
    · exact Or.inr ⟨if_neg fun h ↦ absurd h.2 (not_lt.2 hlarge), hlarge⟩
  · refine Or.inr ⟨?_, ?_⟩
    · rw [retentionMsOf, checkedI64, if_neg fun h ↦ absurd h.2 (not_lt.2 hday)]
      rfl
    · unfold dayMs
      omega

omit [Zero F] [Add F] in
/-- The cutoff for a retention of at least one day: there is none where the retention does not
fit. -/
theorem retentionCutoff_cases {retentionDays : ℕ} {s : UpstreamStats F}
    (hretention : s.retentionMs = retentionMsOf retentionDays) (hdays : 1 ≤ retentionDays)
    (nowMs : ℤ) :
    (s.retentionCutoff nowMs = some (saturateI64 (nowMs - retentionDays * dayMs)) ∧
      retentionDays * dayMs < 2 ^ 63) ∨
    (s.retentionCutoff nowMs = none ∧ 2 ^ 63 ≤ retentionDays * dayMs) := by
  rw [retentionCutoff, hretention]
  rcases retentionMsOf_cases hdays with ⟨hsome, hfits⟩ | ⟨hnone, hlarge⟩
  · exact Or.inl ⟨by rw [hsome, Option.map_some], hfits⟩
  · exact Or.inr ⟨by rw [hnone, Option.map_none], hlarge⟩

omit [Zero F] [Add F] in
/-- A record that adds a bucket prunes what retention does not cover, so the bound holds again. -/
theorem length_le_of_not_isPast {retentionDays : ℕ} {s : UpstreamStats F}
    (hretention : s.retentionMs = retentionMsOf retentionDays) (hdays : 1 ≤ retentionDays)
    {now : Timestamp} {history : List (HourBucket F)}
    (hordered : (history.map HourBucket.hourMs).Pairwise (· < ·))
    (haligned : ∀ b ∈ history, hourMs ∣ b.hourMs ∧ 0 ≤ b.hourMs ∧ b.hourMs < 2 ^ 63)
    (hlast : ∀ b ∈ history, b.hourMs ≤ bucket hourMs now)
    (hkept : ∀ cutoff, s.retentionCutoff now = some cutoff → ∀ b ∈ history, ¬isPast cutoff b) :
    history.length ≤ 24 * retentionDays + 1 := by
  have hbucket := bucket_le (w := hourMs) (by decide) now.1
  have hnonneg : 0 ≤ bucket hourMs now :=
    (le_bucket_iff (w := hourMs) (by decide) (dvd_zero _)).2 now.2.1
  have hnow := now.2
  rcases retentionCutoff_cases hretention hdays now with ⟨hcutoff, hfits⟩ | ⟨-, hlarge⟩
  · -- what is kept ends after `now` less the retention, which is a whole number of hours before
    refine length_le_of_covered (bucket hourMs now - 24 * retentionDays * hourMs) hordered
      (fun b hb ↦ (haligned b hb).1) (fun b hb ↦ ?_) hlast (by unfold hourMs; omega) (by omega)
    have hpast := hkept _ hcutoff b hb
    rw [isPast, decide_eq_true_eq] at hpast
    unfold saturateI64 at hpast
    rw [← bucket_sub_mul (by decide), bucket_le_iff (by decide) (haligned b hb).1]
    unfold dayMs at hfits hpast
    unfold hourMs at hpast ⊢
    omega
  · refine length_le_of_covered 0 hordered (fun b hb ↦ (haligned b hb).1)
      (fun b hb ↦ (haligned b hb).2.1) hlast hnonneg ?_
    unfold dayMs at hlarge
    unfold hourMs at hbucket ⊢
    omega

/-- **A record keeps the history well-formed**, whatever the clock says. -/
theorem WellFormed.record {retentionDays : ℕ} {s : UpstreamStats F}
    (h : WellFormed retentionDays s.history)
    (hretention : s.retentionMs = retentionMsOf retentionDays) (now : Timestamp)
    (success : Option F) : WellFormed retentionDays (s.recordHistory now success).history := by
  obtain ⟨hordered, haligned, hcounted, hgrown⟩ := h.grow now success
  simp only [recordHistory, hour_eq]
  split
  · rename_i cutoff hcutoff
    have hsub : ∀ {b}, b ∈ (addBucket s.history (bucket hourMs now) success).dropWhile
        (isPast cutoff) → b ∈ addBucket s.history (bucket hourMs now) success :=
      fun hb ↦ List.dropWhile_subset _ hb
    have hordered' := hordered.sublist ((List.dropWhile_sublist (isPast cutoff)).map _)
    refine ⟨hordered', fun b hb ↦ haligned b (hsub hb), fun b hb ↦ hcounted b (hsub hb),
      fun hdays ↦ ?_⟩
    rcases hgrown with hsame | hlast
    · exact (List.length_dropWhile_le _ _).trans (hsame.le.trans (h.bounded hdays))
    · refine length_le_of_not_isPast hretention hdays hordered' (fun b hb ↦ haligned b (hsub hb))
        (fun b hb ↦ hlast b (hsub hb)) fun cutoff' hcutoff' b hb ↦ ?_
      rw [← Option.some.inj (hcutoff.symm.trans hcutoff')]
      exact not_isPast_of_mem_dropWhile hordered hb
  · rename_i hcutoff
    refine ⟨hordered, haligned, hcounted, fun hdays ↦ ?_⟩
    rcases hgrown with hsame | hlast
    · exact hsame.le.trans (h.bounded hdays)
    · exact length_le_of_not_isPast hretention hdays hordered haligned hlast
        fun cutoff hsome ↦ absurd (hcutoff.symm.trans hsome) (by simp)

/-- Without a retention, a record adds one call to the history. -/
theorem sum_samples_recordHistory {s : UpstreamStats F} (h : s.retentionMs = none)
    (hordered : (s.history.map HourBucket.hourMs).Pairwise (· < ·)) (nowMs : ℤ)
    (success : Option F) :
    ((s.recordHistory nowMs success).history.map HourBucket.samples).sum =
      (s.history.map HourBucket.samples).sum + 1 := by
  have hcutoff : s.retentionCutoff nowMs = none := by rw [retentionCutoff, h, Option.map_none]
  simp only [recordHistory, hcutoff]
  rcases addBucket_cases hordered (saturateI64 (nowMs / hourMs * hourMs)) success with
    ⟨older, newest, hhistory, heq⟩ | ⟨-, heq⟩
  · rw [heq, hhistory]
    simp only [List.map_append, List.map_singleton, List.sum_append, List.sum_singleton,
      add_samples]
    omega
  · simp only [heq, List.map_append, List.map_singleton, List.sum_append, List.sum_singleton]
    rfl

/-! ### Any sequence of calls -/

/-- The statistics after a sequence of calls. -/
structure Inv (window retentionDays : ℕ) (ops : List (StatsOp F)) (s : UpstreamStats F) : Prop where
  window : s.window = max window 1
  retention : s.retentionMs = retentionMsOf retentionDays
  suffix : s.samples <:+ ops.map StatsOp.sample
  length : s.samples.length = min ops.length s.window
  history : WellFormed retentionDays s.history
  recorded : s.retentionMs = none →
    (s.history.map HourBucket.samples).sum = ops.countP StatsOp.isRecorded

omit [Zero F] [Add F] in
theorem inv_withRetention (window retentionDays : ℕ) :
    Inv window retentionDays [] (withRetention (F := F) window retentionDays) := by
  have hnil : ∀ {P : HourBucket F → Prop}, ∀ b ∈ ([] : List (HourBucket F)), P b :=
    fun b hb ↦ absurd hb List.not_mem_nil
  exact ⟨rfl, by simp only [withRetention], List.suffix_refl _, (Nat.zero_min _).symm,
    ⟨List.Pairwise.nil, hnil, hnil, fun _ ↦ Nat.zero_le _⟩, fun _ ↦ rfl⟩

/-- **One call** keeps the statistics well-formed. -/
theorem Inv.apply {window retentionDays : ℕ} {ops : List (StatsOp F)} {s : UpstreamStats F}
    (h : Inv window retentionDays ops s) (op : StatsOp F) :
    Inv window retentionDays (ops ++ [op]) (s.apply op) := by
  have hpush := push_samples (by rw [h.window]; omega) h.suffix (by rw [List.length_map, h.length])
    op.sample
  rw [List.length_map] at hpush
  have hsuffix : (s.push op.sample).samples <:+ (ops ++ [op]).map StatsOp.sample := by
    rw [List.map_append, List.map_singleton]
    exact hpush.1
  have hlength : (s.push op.sample).samples.length = min (ops ++ [op]).length s.window := by
    rw [List.length_append, List.length_singleton]
    exact hpush.2
  have hcount : (ops ++ [op]).countP StatsOp.isRecorded =
      ops.countP StatsOp.isRecorded + op.isRecorded.toNat := by
    rcases op with ⟨latencyMs, now⟩ | now | - <;> simp [StatsOp.isRecorded]
  rcases op with ⟨latencyMs, now⟩ | now | -
  · refine ⟨h.window, h.retention, hsuffix, hlength, h.history.record h.retention now _,
      fun hnone ↦ ?_⟩
    rw [hcount, ← h.recorded hnone]
    exact sum_samples_recordHistory (s := s.push _) hnone h.history.ordered _ _
  · refine ⟨h.window, h.retention, hsuffix, hlength, h.history.record h.retention now _,
      fun hnone ↦ ?_⟩
    rw [hcount, ← h.recorded hnone]
    exact sum_samples_recordHistory (s := s.push _) hnone h.history.ordered _ _
  · refine ⟨h.window, h.retention, hsuffix, hlength, h.history, fun hnone ↦ ?_⟩
    rw [hcount]
    exact h.recorded hnone

theorem inv_after (window retentionDays : ℕ) (ops : List (StatsOp F)) :
    Inv window retentionDays ops (after window retentionDays ops) := by
  induction ops using List.reverseRecOn with
  | nil => exact inv_withRetention window retentionDays
  | append_singleton ops op ih =>
    rw [after, List.foldl_concat]
    exact ih.apply op

omit [Zero F] [Add F] in
theorem sum_successes_le {buckets : List (HourBucket F)}
    (h : ∀ b ∈ buckets, b.successes ≤ b.samples) :
    (buckets.map HourBucket.successes).sum ≤ (buckets.map HourBucket.samples).sum := by
  induction buckets with
  | nil => exact le_rfl
  | cons b rest ih =>
    rw [List.forall_mem_cons] at h
    simp only [List.map_cons, List.sum_cons]
    exact Nat.add_le_add h.1 (ih h.2)

omit [Zero F] [Add F] in
theorem mem_history_of_mem_covered {s : UpstreamStats F} {nowMs : ℤ} {b : HourBucket F}
    (h : b ∈ s.covered nowMs) : b ∈ s.history := by
  unfold covered at h
  split at h
  · exact (List.mem_filter.1 h).1
  · exact h

/-- **No snapshot of well-formed buckets underflows.** -/
theorem snapshotAt_ok [Div F] [NatCast F] {s : UpstreamStats F}
    (h : ∀ b ∈ s.history, b.successes ≤ b.samples) (nowMs : ℤ) :
    ∃ snapshot, s.snapshotAt nowMs = .ok snapshot := by
  have hle := sum_successes_le fun b (hb : b ∈ s.covered nowMs) ↦
    h b (mem_history_of_mem_covered hb)
  simp only [snapshotAt, usizeSub, if_pos hle, Except.map]
  by_cases hzero : ((s.covered nowMs).map HourBucket.samples).sum = 0
  · simp only [if_pos hzero]
    exact ⟨_, rfl⟩
  · simp only [if_neg hzero]
    exact ⟨_, rfl⟩

/-- **The statistics stay well-formed under any clock.** After every sequence of calls, with any
non-negative timestamps:

* the buckets have strictly increasing hours, at least one call each, and no more successes than
  calls, so that no snapshot underflows;
* a soft failure changes no bucket;
* with a retention of `d ≥ 1` days there are at most `24 * d + 1` buckets, and with a retention of 0
  they account for every success and timeout ever recorded;
* the window holds the newest outcomes, in order, as many as it has room for. -/
theorem well_formed_under_any_clock [Div F] [NatCast F] (window retentionDays : ℕ)
    (ops : List (StatsOp F)) :
    let s := after window retentionDays ops
    (s.history.map HourBucket.hourMs).Pairwise (· < ·) ∧
    (∀ b ∈ s.history, 1 ≤ b.samples ∧ b.successes ≤ b.samples) ∧
    (∀ nowMs, ∃ snapshot, s.snapshotAt nowMs = .ok snapshot) ∧
    (s.apply .softFail).history = s.history ∧
    (1 ≤ retentionDays → s.history.length ≤ 24 * retentionDays + 1) ∧
    (retentionDays = 0 →
      (s.history.map HourBucket.samples).sum = ops.countP StatsOp.isRecorded) ∧
    s.samples <:+ ops.map StatsOp.sample ∧ s.samples.length = min ops.length (max window 1) := by
  intro s
  have h := inv_after window retentionDays ops
  refine ⟨h.history.ordered, h.history.counted,
    snapshotAt_ok fun b hb ↦ (h.history.counted b hb).2, rfl, h.history.bounded, fun hzero ↦ ?_,
    h.suffix, h.window ▸ h.length⟩
  subst hzero
  exact h.recorded (h.retention.trans (by decide))

end UpstreamStats

/-- The clock jumps back over an hour: the record joins the newest bucket. -/
example : ((UpstreamStats.after 2 1 [.success 5 ⟨7200000, by decide⟩, .timeout ⟨0, by decide⟩,
    .softFail] : UpstreamStats ℕ).history) = [⟨7200000, 2, 1, 5⟩] := by decide

end DnsBuffer
